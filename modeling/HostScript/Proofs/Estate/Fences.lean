import HostScript.Host.Surface
import HostScript.Proofs.Heap.Paths

/-!
# Proofs/Estate/Fences — cells that nothing outside refers to

An estate is a set of cells of a store.  It is fenced if nothing refers into it but cells on its grounds,
which are part of it: who begins outside and follows references stays outside (`Heap.Fenced`).  Work on a
heap that is done from outside leaves the estate fenced and its namespaces as they are (`Heap.Leaves`), and a
member of a host that works in this way respects the estate (`Effect.Respects`).
-/

namespace HostScript

/-! ## Cells and values -/

/-- What can be referred to in a store. -/
inductive Cell where
  | list (id : ListId)
  | space (id : NamespaceId)
  | payload (id : PayloadId)
  | function (id : FunctionId)
  | frame (id : FrameId)
  | runtime (id : RuntimeId)

variable {estate grounds : Cell → Prop}

namespace Value

/-- The cell that a value refers to, if it refers to one. -/
@[simp] def cell? : Value → Option Cell
  | .list id => some (.list id)
  | .space id => some (.space id)
  | .function info => some (.function info.id)
  | .object o => some (.payload o.payload)
  | _ => none

/-- A value that does not refer into an estate. -/
@[simp] def Outside (estate : Cell → Prop) : Value → Prop
  | .list id => ¬estate (.list id)
  | .space id => ¬estate (.space id)
  | .function info => ¬estate (.function info.id)
  | .object o => ¬estate (.payload o.payload)
  | _ => True

theorem outside_iff {v : Value} : v.Outside estate ↔ ∀ cell, v.cell? = some cell → ¬estate cell := by
  cases v <;> simp

/-- A value that refers to no cell is outside of every estate. -/
theorem outside_of_plain {v : Value} (plain : v.cell? = none) : v.Outside estate :=
  outside_iff.2 fun _ same => by cases plain.symm.trans same

/-- A result that refers to no cell. -/
@[simp] def ResultPlain {ε : Type} : Except ε Value → Prop
  | .ok v => v.cell? = none
  | .error _ => True

end Value

/-! ## Heaps -/

/-- **A heap with a fence around an estate**: what is not kept on its grounds does not refer into it, and
its cells are there, so that new ones are outside. -/
structure Heap.Fenced (estate grounds : Cell → Prop) (h : Heap) : Prop where
  within (cell : Cell) : grounds cell → estate cell
  lists (id : ListId) : ¬grounds (.list id) → ∀ v ∈ h.list id, v.Outside estate
  spaces (id : NamespaceId) : ¬grounds (.space id) → ∀ e ∈ (h.space id).entries, e.2.Outside estate
  payloads (id : PayloadId) : ¬grounds (.payload id) → ∀ v, h.payload? id = some (.state v) →
    v.Outside estate
  listsThere (id : ListId) : estate (.list id) → id.index < h.lists.size
  spacesThere (id : NamespaceId) : estate (.space id) → id.index < h.namespaces.size
  payloadsThere (id : PayloadId) : estate (.payload id) → id.index < h.payloads.size

/-- **Leaving an estate alone**, from one heap to another. -/
structure Heap.Leaves (estate grounds : Cell → Prop) (h h' : Heap) : Prop where
  fenced : h'.Fenced estate grounds
  same (id : NamespaceId) : estate (.space id) → h'.space id = h.space id

namespace Heap

variable {h : Heap}

theorem Fenced.leaves (fenced : h.Fenced estate grounds) : h.Leaves estate grounds h :=
  ⟨fenced, fun _ _ => rfl⟩

theorem Leaves.trans {h' h'' : Heap} (first : h.Leaves estate grounds h')
    (second : h'.Leaves estate grounds h'') : h.Leaves estate grounds h'' :=
  ⟨second.fenced, fun id own => (second.same id own).trans (first.same id own)⟩

/-- What is outside of an estate is not on its grounds. -/
theorem Fenced.off (fenced : h.Fenced estate grounds) {cell : Cell} (away : ¬estate cell) :
    ¬grounds cell := fun own => away (fenced.within cell own)

/-! ### Lists -/

theorem mem_list_changeList {id other : ListId} {f : Array Value → Array Value} {v : Value}
    (mem : v ∈ (h.changeList id f).list other) : v ∈ h.list other ∨ other = id ∧ v ∈ f (h.list id) := by
  obtain ⟨i⟩ := id
  obtain ⟨j⟩ := other
  unfold list changeList at mem
  rw [Array.getElem?_modify] at mem
  by_cases here : i = j
  · subst here
    rw [if_pos rfl] at mem
    unfold list
    cases found : h.lists[i]? with
    | none =>
      rw [found] at mem
      exact absurd mem (Array.not_mem_empty v)
    | some items =>
      rw [found] at mem
      exact .inr ⟨rfl, mem⟩
  · rw [if_neg here] at mem
    exact .inl mem

theorem Fenced.changeList (fenced : h.Fenced estate grounds) (id : ListId) {f : Array Value → Array Value}
    (kept : ∀ items : Array Value, (∀ v ∈ items, v.Outside estate) → ∀ v ∈ f items, v.Outside estate) :
    h.Leaves estate grounds (h.changeList id f) := by
  refine ⟨⟨fenced.within, fun other away v mem => ?_, fenced.spaces, fenced.payloads,
    fun other own => ?_, fenced.spacesThere, fenced.payloadsThere⟩, fun _ _ => rfl⟩
  · rcases mem_list_changeList mem with before | ⟨rfl, changed⟩
    · exact fenced.lists other away v before
    · exact kept _ (fenced.lists other away) v changed
  · exact Nat.lt_of_lt_of_eq (fenced.listsThere other own) Array.size_modify.symm

/-- A new list is outside. -/
theorem Fenced.newList (fenced : h.Fenced estate grounds) {items : List Value}
    (outside : ∀ v ∈ items, v.Outside estate) :
    ¬estate (.list (h.newList items).1) ∧ h.Leaves estate grounds (h.newList items).2 := by
  refine ⟨fun own => Nat.lt_irrefl _ (fenced.listsThere _ own), ⟨⟨fenced.within,
    fun id away v mem => ?_, fenced.spaces, fenced.payloads, fun id own => ?_, fenced.spacesThere,
    fenced.payloadsThere⟩, fun _ _ => rfl⟩⟩
  · unfold list Heap.newList at mem
    rw [Array.getElem?_push] at mem
    split at mem
    · exact outside v (List.mem_toArray.1 mem)
    · exact fenced.lists id away v mem
  · exact Nat.lt_of_lt_of_eq (Nat.lt_succ_of_lt (fenced.listsThere id own)) (Array.size_push _).symm

theorem Fenced.pushItem (fenced : h.Fenced estate grounds) (id : ListId) {v : Value}
    (outside : v.Outside estate) : h.Leaves estate grounds (h.pushItem id v) :=
  fenced.changeList id fun _ old w mem => (Array.mem_push.1 mem).elim (old w) fun same => same ▸ outside

theorem Fenced.clearList (fenced : h.Fenced estate grounds) (id : ListId) :
    h.Leaves estate grounds (h.clearList id) :=
  fenced.changeList id fun _ _ v mem => absurd mem (Array.not_mem_empty v)

theorem Fenced.setItem (fenced : h.Fenced estate grounds) (id : ListId) (index : Nat) {v : Value}
    (outside : v.Outside estate) : h.Leaves estate grounds (h.setItem id index v).2 := by
  unfold Heap.setItem
  split
  · exact fenced.changeList id fun _ old w mem =>
      (Array.mem_or_eq_of_mem_setIfInBounds mem).elim (old w) fun same => same ▸ outside
  · exact fenced.leaves

/-! ### Namespaces -/

/-- What a namespace off the grounds binds is outside. -/
theorem Fenced.get? (fenced : h.Fenced estate grounds) {id : NamespaceId} (off : ¬grounds (.space id))
    {name : String} {v : Value} (bound : h.get? id name = some v) : v.Outside estate := by
  unfold Heap.get? at bound
  rw [Namespace.get?_eq_map_binding?] at bound
  obtain ⟨entry, found, rfl⟩ := Option.map_eq_some_iff.1 bound
  exact fenced.spaces id off entry (List.mem_of_find?_eq_some found)

/-- A new namespace is outside. -/
theorem Fenced.newSpace (fenced : h.Fenced estate grounds) :
    ¬estate (.space h.newSpace.1) ∧ h.Leaves estate grounds h.newSpace.2 := by
  refine ⟨fun own => Nat.lt_irrefl _ (fenced.spacesThere _ own), ⟨⟨fenced.within, fenced.lists,
    fun id off => ?_, fenced.payloads, fenced.listsThere, fun id own => ?_, fenced.payloadsThere⟩,
    fun id _ => space_newSpace id⟩⟩
  · rw [space_newSpace]
    exact fenced.spaces id off
  · exact Nat.lt_of_lt_of_eq (Nat.lt_succ_of_lt (fenced.spacesThere id own)) (Array.size_push _).symm

/-- Changing what a namespace binds to what is outside. -/
theorem Fenced.setSpace (fenced : h.Fenced estate grounds) (id : NamespaceId) {table : Namespace Value}
    (outside : ¬grounds (.space id) → ∀ e ∈ table.entries, e.2.Outside estate) :
    (h.setSpace id table).Fenced estate grounds := by
  refine ⟨fenced.within, fenced.lists, fun other off e mem => ?_, fenced.payloads, fenced.listsThere,
    fun other own => ?_, fenced.payloadsThere⟩
  · by_cases here : id = other
    · subst here
      by_cases inside : id.index < h.namespaces.size
      · rw [space_setSpace_self inside] at mem
        exact outside off e mem
      · rw [Heap.setSpace, Array.setIfInBounds_eq_of_size_le (Nat.le_of_not_lt inside)] at mem
        exact fenced.spaces id off e mem
    · rw [space_setSpace_of_ne here] at mem
      exact fenced.spaces other off e mem
  · exact Nat.lt_of_lt_of_eq (fenced.spacesThere other own) Array.size_setIfInBounds.symm

/-- Changing a namespace outside leaves those of the estate as they are. -/
theorem space_setSpace_of_own {id other : NamespaceId} (away : ¬estate (.space id))
    (own : estate (.space other)) (h : Heap) (table : Namespace Value) :
    (h.setSpace id table).space other = h.space other := by
  refine space_setSpace_of_ne ?_ h table
  rintro rfl
  exact away own

/-- Binding a name to a value outside, be it in the estate or outside. -/
theorem Fenced.binds (fenced : h.Fenced estate grounds) (id : NamespaceId) (name : String) {v : Value}
    (outside : v.Outside estate) : (h.bind id name v).Fenced estate grounds := by
  refine fenced.setSpace id fun off e mem => ?_
  have old := fenced.spaces id off
  rw [Namespace.entries_insert] at mem
  split at mem
  next =>
    obtain ⟨before, among, rfl⟩ := List.mem_map.1 mem
    split
    · exact outside
    · exact old before among
  next =>
    rcases List.mem_append.1 mem with before | last
    · exact old e before
    · obtain rfl := List.mem_singleton.1 last
      exact outside

theorem Fenced.bind (fenced : h.Fenced estate grounds) {id : NamespaceId} (away : ¬estate (.space id))
    (name : String) {v : Value} (outside : v.Outside estate) :
    h.Leaves estate grounds (h.bind id name v) :=
  ⟨fenced.binds id name outside, fun _ own => space_setSpace_of_own away own h _⟩

theorem Fenced.unbinds (fenced : h.Fenced estate grounds) (id : NamespaceId) (name : String) :
    (h.unbind id name).Fenced estate grounds :=
  fenced.setSpace id fun off e mem =>
    fenced.spaces id off e (List.mem_filter.1 (Namespace.entries_erase _ _ ▸ mem)).1

theorem Fenced.unbind (fenced : h.Fenced estate grounds) {id : NamespaceId} (away : ¬estate (.space id))
    (name : String) : h.Leaves estate grounds (h.unbind id name) :=
  ⟨fenced.unbinds id name, fun _ own => space_setSpace_of_own away own h _⟩

/-! ### Payloads -/

/-- A new payload is outside. -/
theorem Fenced.newPayload (fenced : h.Fenced estate grounds) {payload : Payload}
    (outside : ∀ v, payload = .state v → v.Outside estate) :
    ¬estate (.payload (h.newPayload payload).1) ∧ h.Leaves estate grounds (h.newPayload payload).2 := by
  refine ⟨fun own => Nat.lt_irrefl _ (fenced.payloadsThere _ own), ⟨⟨fenced.within, fenced.lists,
    fenced.spaces,
    fun id away v held => ?_, fenced.listsThere, fenced.spacesThere, fun id own => ?_⟩, fun _ _ => rfl⟩⟩
  · unfold payload? Heap.newPayload at held
    rw [Array.getElem?_push] at held
    split at held
    · exact outside v (Option.some.inj held)
    · exact fenced.payloads id away v held
  · exact Nat.lt_of_lt_of_eq (Nat.lt_succ_of_lt (fenced.payloadsThere id own)) (Array.size_push _).symm

theorem Fenced.setPayload (fenced : h.Fenced estate grounds) (id : PayloadId) {payload : Payload}
    (outside : ∀ v, payload = .state v → v.Outside estate) :
    h.Leaves estate grounds (h.setPayload id payload) := by
  refine ⟨⟨fenced.within, fenced.lists, fenced.spaces, fun other away v held => ?_, fenced.listsThere,
    fenced.spacesThere, fun other own => ?_⟩, fun _ _ => rfl⟩
  · unfold payload? Heap.setPayload at held
    rw [Array.getElem?_setIfInBounds] at held
    split at held
    · split at held
      · exact outside v (Option.some.inj held)
      · cases held
    · exact fenced.payloads other away v held
  · exact Nat.lt_of_lt_of_eq (fenced.payloadsThere other own) Array.size_setIfInBounds.symm

theorem Fenced.print (fenced : h.Fenced estate grounds) (text : String) :
    h.Leaves estate grounds (h.print text) :=
  ⟨⟨fenced.within, fenced.lists, fenced.spaces, fenced.payloads, fenced.listsThere, fenced.spacesThere,
    fenced.payloadsThere⟩, fun _ _ => rfl⟩

end Heap

/-! ## Members of hosts -/

/-- An answer with no cell of an estate in it. -/
@[simp] def Reply.Outside (estate : Cell → Prop) : Reply → Prop
  | .value v => v.Outside estate
  | .fail _ => True
  | .call function args => ¬estate (.function function.id) ∧ ∀ v ∈ args, v.Outside estate

/-- **An effect that works outside of an estate.** -/
def Effect.Respects (estate grounds : Cell → Prop) (e : Effect) : Prop :=
  ∀ h : Heap, h.Fenced estate grounds → (e h).1.Outside estate ∧ h.Leaves estate grounds (e h).2

/-- A receiver outside of an estate. -/
def ReceiverOutside (estate : Cell → Prop) (receiver : Option Value) : Prop :=
  ∀ v, receiver = some v → v.Outside estate

/-- A method that works outside of an estate if what it is given is outside. -/
def Method.Respects (estate grounds : Cell → Prop) (m : Method) : Prop :=
  ∀ receiver args, ReceiverOutside estate receiver → (∀ v ∈ args, v.Outside estate) →
    (m.run receiver args).Respects estate grounds

/-- A property that works outside of an estate if what it is given is outside. -/
structure Property.Respects (estate grounds : Cell → Prop) (p : Property) : Prop where
  get : ∀ receiver, ReceiverOutside estate receiver → (p.get receiver).Respects estate grounds
  set : ∀ set, p.set? = some set → ∀ receiver v, ReceiverOutside estate receiver → v.Outside estate →
    ∀ h : Heap, h.Fenced estate grounds → h.Leaves estate grounds (set receiver v h).2

/-- A constructor that works outside of an estate if what it is given is outside. -/
def Constructor.Respects (estate grounds : Cell → Prop) (c : Constructor) : Prop :=
  ∀ type args, (∀ v ∈ args, v.Outside estate) → (c.run type args).Respects estate grounds

/-- Access by index outside of an estate if what it is given is outside. -/
structure Indexer.Respects (estate grounds : Cell → Prop) (i : Indexer) : Prop where
  get : ∀ target index, target.Outside estate → index.Outside estate →
    (i.get target index).Respects estate grounds
  set : ∀ set, i.set? = some set → ∀ target index v, target.Outside estate → index.Outside estate →
    v.Outside estate → (set target index v).Respects estate grounds

/-- **Members that work outside of an estate.** -/
structure MembersRespect (estate grounds : Cell → Prop) (methods : List Method) (properties : List Property)
    (constructors : List Constructor) (indexer? : Option Indexer) : Prop where
  methods : ∀ m ∈ methods, m.Respects estate grounds
  properties : ∀ p ∈ properties, p.Respects estate grounds
  constructors : ∀ c ∈ constructors, c.Respects estate grounds
  indexer : ∀ i, indexer? = some i → i.Respects estate grounds

theorem membersRespect_nil : MembersRespect estate grounds [] [] [] none :=
  ⟨List.forall_mem_nil _, List.forall_mem_nil _, List.forall_mem_nil _, fun _ never => by cases never⟩

/-- A type whose members work outside of an estate. -/
def HostType.Respects (estate grounds : Cell → Prop) (t : HostType) : Prop :=
  MembersRespect estate grounds t.methods t.properties t.constructors t.indexer?

/-- **A registry of types whose members work outside of an estate.** -/
def Registry.Respects (estate grounds : Cell → Prop) (registry : Registry) : Prop :=
  ∀ t ∈ registry.types, t.Respects estate grounds

theorem Registry.Respects.type {registry : Registry} (respects : registry.Respects estate grounds)
    (info : TypeInfo) : (registry.type info).Respects estate grounds := by
  unfold Registry.type
  cases found : registry.types[info.id.index]? with
  | some t => exact respects t (Array.mem_of_getElem? found)
  | none => exact membersRespect_nil

end HostScript
