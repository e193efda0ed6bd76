import HostScript.Proofs.Estate.Fences
import HostScript.Proofs.Machine.Frames

/-!
# Proofs/Import/Hidden — global names out of the reach of scripts

Scripts get at a namespace only through values.  If no value that is kept anywhere is the root of the
global names, and no function of a script has that root as its module, then scripts can bind global
names only by importing files: `Heap.Hides` and `Store.Hides`.  What works on the heap on behalf of a
script keeps the root hidden and its names as they are: `Heap.Spares`.

A hidden root is an estate of one cell, with a fence around it and no grounds, for not even the root itself
refers to it (`Heap.hides_iff`); so what is known of fences is known of hidden roots.
-/

namespace HostScript

variable {root : NamespaceId}

/-- A value other than the root of the global names. -/
def Value.Avoids (root : NamespaceId) : Value → Prop
  | .space id => id ≠ root
  | _ => True

/-- The root of the global names, as an estate of one cell. -/
def Cell.IsRoot (root : NamespaceId) (cell : Cell) : Prop := cell = .space root

/-- Grounds without cells. -/
def Cell.Nowhere (_ : Cell) : Prop := False

theorem Value.avoids_iff {v : Value} : v.Avoids root ↔ v.Outside (Cell.IsRoot root) := by
  cases v <;> simp [Avoids, Cell.IsRoot]

/-! ## Heaps -/

/-- **A heap that hides the root of the global names.** -/
structure Heap.Hides (root : NamespaceId) (h : Heap) : Prop where
  lists : ∀ items ∈ h.lists, ∀ v ∈ items, v.Avoids root
  spaces : ∀ table ∈ h.namespaces, ∀ e ∈ table.entries, e.2.Avoids root
  payloads : ∀ p ∈ h.payloads, ∀ v, p = .state v → v.Avoids root
  there : root.index < h.namespaces.size

/-- **Hiding the root and sparing its names**, from one heap to another. -/
structure Heap.Spares (root : NamespaceId) (h h' : Heap) : Prop where
  hides : h'.Hides root
  same : h'.space root = h.space root

theorem mem_or_of_mem_modify {α : Type} {xs : Array α} {i : Nat} {f : α → α} {y : α}
    (h : y ∈ xs.modify i f) : y ∈ xs ∨ ∃ x ∈ xs, y = f x := by
  obtain ⟨j, found⟩ := Array.mem_iff_getElem?.1 h
  rw [Array.getElem?_modify] at found
  split at found
  next =>
    obtain ⟨x, there, rfl⟩ := Option.map_eq_some_iff.1 found
    exact .inr ⟨x, Array.mem_of_getElem? there, rfl⟩
  next => exact .inl (Array.mem_of_getElem? found)

namespace Heap

variable {h h' : Heap}

/-- **To hide the root is to have a fence around it**, without grounds. -/
theorem hides_iff : h.Hides root ↔ h.Fenced (Cell.IsRoot root) Cell.Nowhere := by
  constructor
  · intro hides
    refine ⟨fun _ => False.elim, fun id _ v mem => ?_, fun id _ e mem => ?_, fun id _ v held => ?_, nofun,
      fun id own => Cell.space.inj own ▸ hides.there, nofun⟩
    · unfold Heap.list at mem
      cases found : h.lists[id.index]? with
      | none =>
        rw [found] at mem
        exact absurd mem (Array.not_mem_empty v)
      | some items =>
        rw [found] at mem
        exact Value.avoids_iff.1 (hides.lists items (Array.mem_of_getElem? found) v mem)
    · unfold space at mem
      cases found : h.namespaces[id.index]? with
      | none =>
        rw [found] at mem
        exact absurd mem List.not_mem_nil
      | some names =>
        rw [found] at mem
        exact Value.avoids_iff.1 (hides.spaces names (Array.mem_of_getElem? found) e mem)
    · exact Value.avoids_iff.1 (hides.payloads _ (Array.mem_of_getElem? held) v rfl)
  · intro fenced
    refine ⟨fun items mem v inside => ?_, fun names mem e inside => ?_, fun p mem v state => ?_,
      fenced.spacesThere root rfl⟩
    · obtain ⟨i, found⟩ := Array.mem_iff_getElem?.1 mem
      refine Value.avoids_iff.2 (fenced.lists ⟨i⟩ id v ?_)
      rwa [Heap.list, found]
    · obtain ⟨i, found⟩ := Array.mem_iff_getElem?.1 mem
      refine Value.avoids_iff.2 (fenced.spaces ⟨i⟩ id e ?_)
      rwa [space, found]
    · obtain ⟨i, found⟩ := Array.mem_iff_getElem?.1 mem
      exact Value.avoids_iff.2 (fenced.payloads ⟨i⟩ id v (state ▸ found))

theorem spares_iff : h.Spares root h' ↔ h.Leaves (Cell.IsRoot root) Cell.Nowhere h' := by
  constructor
  · rintro ⟨hides, same⟩
    exact ⟨hides_iff.1 hides, fun id own => Cell.space.inj own ▸ same⟩
  · rintro ⟨fenced, same⟩
    exact ⟨hides_iff.2 fenced, same root rfl⟩

theorem Hides.get? (hides : h.Hides root) {id : NamespaceId} {name : String} {v : Value}
    (bound : h.get? id name = some v) : v.Avoids root :=
  Value.avoids_iff.2 ((hides_iff.1 hides).get? (fun never => never) bound)

/-- A new namespace is not the root. -/
theorem Hides.newSpace (hides : h.Hides root) : h.newSpace.1 ≠ root ∧ h.Spares root h.newSpace.2 := by
  obtain ⟨fresh, leaves⟩ := (hides_iff.1 hides).newSpace
  exact ⟨fun same => fresh (congrArg Cell.space same), spares_iff.2 leaves⟩

theorem Hides.bind (hides : h.Hides root) (id : NamespaceId) (name : String) {v : Value}
    (avoid : v.Avoids root) : (h.bind id name v).Hides root :=
  hides_iff.2 ((hides_iff.1 hides).binds id name (Value.avoids_iff.1 avoid))

theorem Hides.unbind (hides : h.Hides root) (id : NamespaceId) (name : String) :
    (h.unbind id name).Hides root := hides_iff.2 ((hides_iff.1 hides).unbinds id name)

end Heap

/-! ## Members of hosts -/

/-- An answer with no root of the global names in it. -/
def Reply.Avoids (root : NamespaceId) : Reply → Prop
  | .value v => v.Avoids root
  | .fail _ => True
  | .call _ args => ∀ v ∈ args, v.Avoids root

/-- **An effect that neither shows the root of the global names nor touches them.** -/
def Effect.Discreet (root : NamespaceId) (e : Effect) : Prop :=
  ∀ h : Heap, h.Hides root → (e h).1.Avoids root ∧ h.Spares root (e h).2

/-- A receiver that is no root of the global names. -/
def ReceiverAvoids (root : NamespaceId) (receiver : Option Value) : Prop :=
  ∀ v, receiver = some v → v.Avoids root

/-- A method that is discreet on what scripts may give it. -/
def Method.Discreet (root : NamespaceId) (m : Method) : Prop :=
  ∀ receiver args, ReceiverAvoids root receiver → (∀ v ∈ args, v.Avoids root) →
    (m.run receiver args).Discreet root

/-- A property that is discreet. -/
structure Property.Discreet (root : NamespaceId) (p : Property) : Prop where
  get : ∀ receiver, ReceiverAvoids root receiver → (p.get receiver).Discreet root
  set : ∀ set, p.set? = some set → ∀ receiver v, ReceiverAvoids root receiver → v.Avoids root →
    ∀ h : Heap, h.Hides root → h.Spares root (set receiver v h).2

/-- A constructor that is discreet. -/
def Constructor.Discreet (root : NamespaceId) (c : Constructor) : Prop :=
  ∀ type args, (∀ v ∈ args, v.Avoids root) → (c.run type args).Discreet root

/-- Access by index that is discreet. -/
structure Indexer.Discreet (root : NamespaceId) (i : Indexer) : Prop where
  get : ∀ target index, target.Avoids root → index.Avoids root → (i.get target index).Discreet root
  set : ∀ set, i.set? = some set → ∀ target index v, target.Avoids root → index.Avoids root →
    v.Avoids root → (set target index v).Discreet root

/-- **Members that are discreet.** -/
structure MembersDiscreet (root : NamespaceId) (methods : List Method) (properties : List Property)
    (constructors : List Constructor) (indexer? : Option Indexer) : Prop where
  methods : ∀ m ∈ methods, m.Discreet root
  properties : ∀ p ∈ properties, p.Discreet root
  constructors : ∀ c ∈ constructors, c.Discreet root
  indexer : ∀ i, indexer? = some i → i.Discreet root

/-- A type with discreet members. -/
def HostType.Discreet (root : NamespaceId) (t : HostType) : Prop :=
  MembersDiscreet root t.methods t.properties t.constructors t.indexer?

/-- **A registry of types with discreet members.** -/
def Registry.Discreet (root : NamespaceId) (registry : Registry) : Prop :=
  ∀ t ∈ registry.types, t.Discreet root

/-! ### Discretion and respect

To be discreet is to respect the hidden root. -/

theorem Reply.avoids_iff {reply : Reply} : reply.Avoids root ↔ reply.Outside (Cell.IsRoot root) := by
  cases reply with
  | value v => exact Value.avoids_iff
  | fail message => exact Iff.rfl
  | call function args =>
    refine ⟨fun avoid => ⟨nofun, fun v mem => Value.avoids_iff.1 (avoid v mem)⟩, fun outside v mem => ?_⟩
    exact Value.avoids_iff.2 (outside.2 v mem)

theorem Effect.discreet_iff {e : Effect} :
    e.Discreet root ↔ e.Respects (Cell.IsRoot root) Cell.Nowhere := by
  simp only [Discreet, Respects, Heap.hides_iff, Reply.avoids_iff, Heap.spares_iff]

theorem receiverAvoids_iff {receiver : Option Value} :
    ReceiverAvoids root receiver ↔ ReceiverOutside (Cell.IsRoot root) receiver := by
  simp only [ReceiverAvoids, ReceiverOutside, Value.avoids_iff]

theorem Method.discreet_iff {m : Method} :
    m.Discreet root ↔ m.Respects (Cell.IsRoot root) Cell.Nowhere := by
  simp only [Discreet, Respects, receiverAvoids_iff, Value.avoids_iff, Effect.discreet_iff]

theorem Property.discreet_iff {p : Property} :
    p.Discreet root ↔ p.Respects (Cell.IsRoot root) Cell.Nowhere := by
  constructor
  · rintro ⟨get, set⟩
    simp only [receiverAvoids_iff, Value.avoids_iff, Effect.discreet_iff, Heap.hides_iff,
      Heap.spares_iff] at get set
    exact ⟨get, set⟩
  · rintro ⟨get, set⟩
    simp only [← receiverAvoids_iff, ← Value.avoids_iff, ← Effect.discreet_iff, ← Heap.hides_iff,
      ← Heap.spares_iff] at get set
    exact ⟨get, set⟩

theorem Constructor.discreet_iff {c : Constructor} :
    c.Discreet root ↔ c.Respects (Cell.IsRoot root) Cell.Nowhere := by
  simp only [Discreet, Respects, Value.avoids_iff, Effect.discreet_iff]

theorem Indexer.discreet_iff {i : Indexer} :
    i.Discreet root ↔ i.Respects (Cell.IsRoot root) Cell.Nowhere := by
  constructor
  · rintro ⟨get, set⟩
    simp only [Value.avoids_iff, Effect.discreet_iff] at get set
    exact ⟨get, set⟩
  · rintro ⟨get, set⟩
    simp only [← Value.avoids_iff, ← Effect.discreet_iff] at get set
    exact ⟨get, set⟩

theorem HostType.discreet_iff {t : HostType} :
    t.Discreet root ↔ t.Respects (Cell.IsRoot root) Cell.Nowhere := by
  constructor
  · rintro ⟨methods, properties, constructors, indexer⟩
    exact ⟨fun m mem => Method.discreet_iff.1 (methods m mem),
      fun p mem => Property.discreet_iff.1 (properties p mem),
      fun c mem => Constructor.discreet_iff.1 (constructors c mem),
      fun i same => Indexer.discreet_iff.1 (indexer i same)⟩
  · rintro ⟨methods, properties, constructors, indexer⟩
    exact ⟨fun m mem => Method.discreet_iff.2 (methods m mem),
      fun p mem => Property.discreet_iff.2 (properties p mem),
      fun c mem => Constructor.discreet_iff.2 (constructors c mem),
      fun i same => Indexer.discreet_iff.2 (indexer i same)⟩

/-- **A registry is discreet if it respects the hidden root**, and only then. -/
theorem Registry.discreet_iff {registry : Registry} :
    registry.Discreet root ↔ registry.Respects (Cell.IsRoot root) Cell.Nowhere := by
  simp only [Discreet, Respects, HostType.discreet_iff]

/-! ## Stores -/

/-- **A store that hides the root of the global names**: no value in it is the root, and no function of a
script has it as its module. -/
structure Store.Hides (root : NamespaceId) (s : Store) : Prop where
  heap : s.toHeap.Hides root
  frames : ∀ frame ∈ s.frames, ∀ v ∈ frame.slots, v.Avoids root
  functions : ∀ f ∈ s.functions, ∀ template frame module rt,
    f = .script template frame module rt → module ≠ root

namespace Store

variable {s t : Store}

theorem Hides.of_code (hides : s.Hides root) (heap : t.toHeap.Hides root) (same : s.SameCode t) :
    t.Hides root :=
  ⟨heap, same.frames.symm ▸ hides.frames, same.functions.symm ▸ hides.functions⟩

theorem Hides.newFrame (hides : s.Hides root) (layout : Layout) {values : List Value}
    (avoid : ∀ v ∈ values, v.Avoids root) (parent? : Option FrameId) :
    (s.newFrame layout values parent?).2.Hides root := by
  refine ⟨hides.heap, fun frame mem => ?_, hides.functions⟩
  rcases Array.mem_push.1 mem with before | rfl
  · exact hides.frames frame before
  · intro v mem
    rcases List.mem_append.1 (List.mem_toArray.1 mem) with given | missing
    · exact avoid v given
    · obtain rfl := List.eq_of_mem_replicate missing
      trivial

theorem Hides.newFunction (hides : s.Hides root) {callable : Callable}
    (other : ∀ template frame module rt, callable = .script template frame module rt → module ≠ root) :
    (s.newFunction callable).2.Hides root := by
  refine ⟨hides.heap, hides.frames, fun f mem => ?_⟩
  rcases Array.mem_push.1 mem with before | rfl
  · exact hides.functions f before
  · exact other

theorem Hides.writeSlot (hides : s.Hides root) (id : FrameId) (slot : SlotRef) {v : Value}
    (avoid : v.Avoids root) : (s.writeSlot id slot v).Hides root := by
  unfold Store.writeSlot
  split
  · refine ⟨hides.heap, fun frame mem => ?_, hides.functions⟩
    dsimp only at mem
    rcases mem_or_of_mem_modify mem with before | ⟨old, before, rfl⟩
    · exact hides.frames frame before
    · intro w mem
      rcases Array.mem_or_eq_of_mem_setIfInBounds mem with kept | rfl
      · exact hides.frames old before w kept
      · exact avoid
  · exact hides

theorem Hides.readSlot (hides : s.Hides root) (id : FrameId) (slot : SlotRef) :
    (s.readSlot id slot).Avoids root := by
  unfold Store.readSlot
  cases found : (s.outer? id slot.depth).bind fun frame => do
      (← s.frames[frame.index]?).slots[slot.index]? with
  | none => trivial
  | some v =>
    obtain ⟨place, -, held⟩ := Option.bind_eq_some_iff.1 found
    obtain ⟨frame, there, kept⟩ := Option.bind_eq_some_iff.1 held
    exact hides.frames frame (Array.mem_of_getElem? there) v (Array.mem_of_getElem? kept)

theorem Hides.function? (hides : s.Hides root) {id : FunctionId} {template : Template Code}
    {frame : FrameId} {module : NamespaceId} {rt : RuntimeId}
    (found : s.function? id = some (.script template frame module rt)) : module ≠ root :=
  hides.functions _ (Array.mem_of_getElem? found) _ _ _ _ rfl

end Store

end HostScript
