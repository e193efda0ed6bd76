import HostScript.Heap
import Mathlib.Data.Finmap

/-!
# Proofs/Heap/Maps — namespaces are finite maps

A namespace *means* a finite map from folded names to the spelling and the value of their bindings
(`Namespace.toMap`), and a heap means the maps of its namespaces.  Binding, unbinding, looking up and
making children are what they are on maps (`maps_nameOp`).  `namespaces_are_maps` says this of any
sequence of operations, on any of the namespaces of a heap, and also which spellings are shown: those
that were used first since the name was last removed.
-/

namespace HostScript

/-! ## Operations -/

/-- What may be done with a namespace. -/
inductive NameOp where
  | set (name : String) (v : Value)
  | remove (name : String)
  | get (name : String)
  | contains (name : String)
  | child (name : String)

/-- What an operation on a namespace answers. -/
inductive NameAnswer where
  | done
  | value (v? : Option Value)
  | truth (b : Bool)
  | space (id? : Option NamespaceId)

/-- An operation on a namespace of a heap. -/
def Heap.nameOp (h : Heap) (id : NamespaceId) : NameOp → NameAnswer × Heap
  | .set name v => (.done, h.bind id name v)
  | .remove name => (.value ((h.space id).remove name).1, h.unbind id name)
  | .get name => (.value (h.get? id name), h)
  | .contains name => (.truth ((h.space id).contains name), h)
  | .child name => ((.space (h.child id name).1), (h.child id name).2)

/-- Operations on namespaces of a heap, one after another. -/
def Heap.nameOps (h : Heap) : List (NamespaceId × NameOp) → List NameAnswer × Heap
  | [] => ([], h)
  | (id, op) :: rest =>
    let (answer, h) := h.nameOp id op
    let (answers, h) := h.nameOps rest
    (answer :: answers, h)

/-! ## Maps -/

/-- What folded names are bound to, and the spellings they were bound with. -/
abbrev NameMap := Finmap fun _ : String => String × Value

/-- A map for each namespace. -/
structure NameMaps where
  maps : Array NameMap

namespace NameMaps

/-- The spelling and the value of a name. -/
def find? (ms : NameMaps) (id : NamespaceId) (name : String) : Option (String × Value) :=
  ms.maps[id.index]?.bind fun m => m.lookup (Text.fold name)

/-- Binds a name, which keeps its spelling if it has one. -/
def bind (ms : NameMaps) (id : NamespaceId) (name : String) (v : Value) : NameMaps :=
  ⟨ms.maps.modify id.index fun m =>
    m.insert (Text.fold name) (((m.lookup (Text.fold name)).map (·.1)).getD name, v)⟩

/-- Unbinds a name. -/
def unbind (ms : NameMaps) (id : NamespaceId) (name : String) : NameMaps :=
  ⟨ms.maps.modify id.index fun m => m.erase (Text.fold name)⟩

/-- The namespace a name is bound to, made if the name is free; none if it is bound to anything else. -/
def child (ms : NameMaps) (id : NamespaceId) (name : String) : Option NamespaceId × NameMaps :=
  match ms.find? id name with
  | some (_, .space inner) => (some inner, ms)
  | some _ => (none, ms)
  | none =>
    let inner : NamespaceId := ⟨ms.maps.size⟩
    (some inner, (⟨ms.maps.push ∅⟩ : NameMaps).bind id name (.space inner))

/-- An operation on a map. -/
def nameOp (ms : NameMaps) (id : NamespaceId) : NameOp → NameAnswer × NameMaps
  | .set name v => (.done, ms.bind id name v)
  | .remove name => (.value ((ms.find? id name).map (·.2)), ms.unbind id name)
  | .get name => (.value ((ms.find? id name).map (·.2)), ms)
  | .contains name => (.truth (ms.find? id name).isSome, ms)
  | .child name => (.space (ms.child id name).1, (ms.child id name).2)

/-- Operations on maps, one after another. -/
def nameOps (ms : NameMaps) : List (NamespaceId × NameOp) → List NameAnswer × NameMaps
  | [] => ([], ms)
  | (id, op) :: rest =>
    let (answer, ms) := ms.nameOp id op
    let (answers, ms) := ms.nameOps rest
    (answer :: answers, ms)

end NameMaps

/-! ## What namespaces mean -/

namespace Namespace

variable (ns : Namespace Value)

/-- The map that a namespace means. -/
def toMap : NameMap := (ns.entries.map fun e => (⟨Text.fold e.1, e⟩ : Sigma fun _ => _)).toFinmap

theorem toMap_empty : (empty : Namespace Value).toMap = ∅ := rfl

theorem lookup_toMap (key : String) :
    ns.toMap.lookup key = ns.entries.find? fun e => Text.fold e.1 == key := by
  rw [toMap, Finmap.dlookup_list_toFinmap]
  induction ns.entries with
  | nil => rfl
  | cons e rest ih =>
    rw [List.map_cons, List.find?_cons]
    by_cases here : Text.fold e.1 = key
    · obtain rfl := here
      rw [List.dlookup_cons_eq, BEq.rfl]
    · rw [List.dlookup_cons_ne _ _ (Ne.symm here), beq_eq_false_iff_ne.2 here]
      exact ih

theorem lookup_toMap_fold (name : String) : ns.toMap.lookup (Text.fold name) = ns.binding? name :=
  ns.lookup_toMap _

theorem lookup_toMap_eq_none {key : String} (unfolded : Text.fold key ≠ key) :
    ns.toMap.lookup key = none := by
  rw [lookup_toMap, List.find?_eq_none]
  intro e _ same
  rw [← beq_iff_eq.1 same, Text.fold_fold] at unfolded
  exact unfolded rfl

/-- A namespace means a map if it binds names as the map does, and the map has folded names only. -/
theorem toMap_eq {m : NameMap} (same : ∀ name, ns.binding? name = m.lookup (Text.fold name))
    (folded : ∀ key, Text.fold key ≠ key → m.lookup key = none) : ns.toMap = m := by
  refine Finmap.ext_lookup fun key => ?_
  by_cases is_folded : Text.fold key = key
  · rw [← is_folded, lookup_toMap_fold, same]
  · rw [ns.lookup_toMap_eq_none is_folded, folded key is_folded]

theorem toMap_insert (name : String) (v : Value) :
    (ns.insert name v).toMap = ns.toMap.insert (Text.fold name)
      (((ns.toMap.lookup (Text.fold name)).map (·.1)).getD name, v) := by
  rw [lookup_toMap_fold]
  refine toMap_eq _ (fun other => ?_) fun key unfolded => ?_
  · by_cases same : Text.fold other = Text.fold name
    · rw [same, Finmap.lookup_insert, binding?_congr _ same, binding?_insert_self]
    · rw [Finmap.lookup_insert_of_ne _ same, lookup_toMap_fold, binding?_insert_of_ne _ _ same]
  · have differs : key ≠ Text.fold name := by
      rintro rfl
      exact unfolded (Text.fold_fold name)
    rw [Finmap.lookup_insert_of_ne _ differs, ns.lookup_toMap_eq_none unfolded]

theorem toMap_erase (name : String) : (ns.erase name).toMap = ns.toMap.erase (Text.fold name) := by
  refine toMap_eq _ (fun other => ?_) fun key unfolded => ?_
  · by_cases same : Text.fold other = Text.fold name
    · rw [same, Finmap.lookup_erase, binding?_congr _ same, binding?_erase_self]
    · rw [Finmap.lookup_erase_ne same, lookup_toMap_fold, binding?_erase_of_ne _ same]
  · by_cases same : key = Text.fold name
    · rw [same, Finmap.lookup_erase]
    · rw [Finmap.lookup_erase_ne same, ns.lookup_toMap_eq_none unfolded]

/-- Unbinding a name tells what it was bound to. -/
theorem remove_fst (name : String) : (ns.remove name).1 = ns.get? name :=
  ns.toTable.remove_fst name

end Namespace

/-! ## What heaps mean -/

namespace Heap

variable (h : Heap) (id : NamespaceId) (name : String)

/-- The maps that a heap means. -/
def maps (h : Heap) : NameMaps := ⟨h.namespaces.map Namespace.toMap⟩

theorem find?_maps : h.maps.find? id name = (h.space id).binding? name := by
  unfold NameMaps.find? maps space
  dsimp only
  rw [Array.getElem?_map]
  cases h.namespaces[id.index]? with
  | none => rfl
  | some ns => exact ns.lookup_toMap_fold name

/-- Changing the table of a namespace changes the map that it means. -/
theorem maps_setSpace {f : NameMap → NameMap} {table : Namespace Value}
    (means : table.toMap = f (h.space id).toMap) :
    (h.setSpace id table).maps = ⟨h.maps.maps.modify id.index f⟩ := by
  refine congrArg NameMaps.mk (Array.ext_getElem? fun i => ?_)
  unfold setSpace maps
  dsimp only
  rw [Array.getElem?_map, Array.getElem?_setIfInBounds, Array.getElem?_modify, Array.getElem?_map]
  by_cases here : id.index = i
  · subst here
    rw [if_pos rfl, if_pos rfl]
    unfold space at means
    by_cases inside : id.index < h.namespaces.size
    · rw [Array.getElem?_eq_getElem inside] at means ⊢
      rw [if_pos inside]
      exact congrArg some means
    · rw [if_neg inside, Array.getElem?_eq_none (Nat.le_of_not_lt inside)]
      rfl
  · rw [if_neg here, if_neg here]

theorem maps_bind (v : Value) : (h.bind id name v).maps = h.maps.bind id name v :=
  h.maps_setSpace id (Namespace.toMap_insert _ _ _)

theorem maps_unbind : (h.unbind id name).maps = h.maps.unbind id name :=
  h.maps_setSpace id (Namespace.toMap_erase _ _)

theorem maps_newSpace : h.newSpace.2.maps = ⟨h.maps.maps.push ∅⟩ :=
  congrArg NameMaps.mk Array.map_push

/-- **Making a child is what it is on maps.** -/
theorem child_maps :
    h.maps.child id name = ((h.child id name).1, (h.child id name).2.maps) := by
  unfold NameMaps.child child
  rw [find?_maps]
  unfold get?
  rw [Namespace.get?_eq_map_binding?]
  cases (h.space id).binding? name with
  | none =>
    have size : h.maps.maps.size = h.namespaces.size := Array.size_map
    dsimp only [Option.map_none]
    rw [maps_bind, maps_newSpace, size]
    rfl
  | some binding =>
    obtain ⟨spelling, v⟩ := binding
    cases v <;> rfl

/-- **Operations on namespaces are operations on maps.** -/
theorem nameOp_maps (op : NameOp) :
    h.maps.nameOp id op = ((h.nameOp id op).1, (h.nameOp id op).2.maps) := by
  have value (name : String) : (h.maps.find? id name).map (·.2) = h.get? id name := by
    rw [find?_maps, get?, Namespace.get?_eq_map_binding?]
  cases op with
  | set name v => exact congrArg _ (h.maps_bind id name v).symm
  | remove name =>
    dsimp only [NameMaps.nameOp, nameOp]
    rw [value, Namespace.remove_fst, maps_unbind]
    rfl
  | get name =>
    dsimp only [NameMaps.nameOp, nameOp]
    rw [value]
  | contains name =>
    dsimp only [NameMaps.nameOp, nameOp]
    rw [find?_maps, Namespace.contains_eq_isSome_get?, Namespace.get?_eq_map_binding?,
      Option.isSome_map]
  | child name =>
    dsimp only [NameMaps.nameOp, nameOp]
    rw [child_maps]

theorem nameOps_maps (ops : List (NamespaceId × NameOp)) :
    h.maps.nameOps ops = ((h.nameOps ops).1, (h.nameOps ops).2.maps) := by
  induction ops generalizing h with
  | nil => rfl
  | cons first rest ih =>
    unfold NameMaps.nameOps nameOps
    rw [nameOp_maps]
    dsimp only
    rw [ih]

end Heap

/-! ## Spellings -/

/-- The spelling that a name is shown in after an operation: one that a binding was made with stays until
the name is removed. -/
def NameOp.shown (key : String) (before : Option String) : NameOp → Option String
  | .set name _ | .child name =>
    if Text.fold name = key then before.or (some name) else before
  | .remove name => if Text.fold name = key then none else before
  | .get _ | .contains _ => before

/-- The spelling that a name of a namespace is shown in after operations. -/
def NameOp.shownAfter (id : NamespaceId) (key : String) (before : Option String) :
    List (NamespaceId × NameOp) → Option String
  | [] => before
  | (other, op) :: rest =>
    shownAfter id key (if other = id then op.shown key before else before) rest

namespace NameMaps

variable (ms : NameMaps) (id : NamespaceId)

/-- The spelling of a folded name. -/
def spelling? (ms : NameMaps) (id : NamespaceId) (key : String) : Option String :=
  ms.maps[id.index]?.bind fun m => (m.lookup key).map (·.1)

variable {ms id}

theorem spelling?_fold (ms : NameMaps) (id : NamespaceId) (name : String) :
    ms.spelling? id (Text.fold name) = (ms.find? id name).map (·.1) := by
  unfold spelling? find?
  rw [Option.map_bind]
  rfl

theorem spelling?_modify_self (ms : NameMaps) (id : NamespaceId) (f : NameMap → NameMap)
    (key : String) :
    (⟨ms.maps.modify id.index f⟩ : NameMaps).spelling? id key =
      ms.maps[id.index]?.bind fun m => ((f m).lookup key).map (·.1) := by
  unfold spelling?
  rw [Array.getElem?_modify, if_pos rfl, Option.bind_map]
  rfl

theorem spelling?_modify_of_ne {other : NamespaceId} (apart : other ≠ id) (ms : NameMaps)
    (f : NameMap → NameMap) (key : String) :
    (⟨ms.maps.modify other.index f⟩ : NameMaps).spelling? id key = ms.spelling? id key := by
  unfold spelling?
  rw [Array.getElem?_modify, if_neg]
  exact fun same => apart (congrArg NamespaceId.mk same)

theorem spelling?_bind (inside : id.index < ms.maps.size) (other : NamespaceId) (name key : String)
    (v : Value) :
    (ms.bind other name v).spelling? id key =
      if other = id then (NameOp.set name v).shown key (ms.spelling? id key)
      else ms.spelling? id key := by
  by_cases here : other = id
  · subst here
    rw [if_pos rfl, bind, spelling?_modify_self, spelling?, Array.getElem?_eq_getElem inside]
    dsimp only [Option.bind_some, NameOp.shown]
    by_cases same : Text.fold name = key
    · rw [if_pos same, ← same, Finmap.lookup_insert]
      cases Finmap.lookup (Text.fold name) ms.maps[other.index] <;> rfl
    · rw [if_neg same, Finmap.lookup_insert_of_ne _ (Ne.symm same)]
  · rw [if_neg here, bind, spelling?_modify_of_ne here]

theorem spelling?_unbind (ms : NameMaps) (id other : NamespaceId) (name key : String) :
    (ms.unbind other name).spelling? id key =
      if other = id then (NameOp.remove name).shown key (ms.spelling? id key)
      else ms.spelling? id key := by
  by_cases here : other = id
  · subst here
    rw [if_pos rfl, unbind, spelling?_modify_self, spelling?]
    dsimp only [NameOp.shown]
    by_cases same : Text.fold name = key
    · rw [if_pos same, ← same]
      cases ms.maps[other.index]? with
      | none => rfl
      | some m => rw [Option.bind_some, Finmap.lookup_erase]; rfl
    · simp only [if_neg same, Finmap.lookup_erase_ne (Ne.symm same)]
  · rw [if_neg here, unbind, spelling?_modify_of_ne here]

/-- A child that is made is shown as a name that is set, and one that is there has been. -/
theorem spelling?_child (inside : id.index < ms.maps.size) (other : NamespaceId)
    (name key : String) :
    (ms.child other name).2.spelling? id key =
      if other = id then (NameOp.child name).shown key (ms.spelling? id key)
      else ms.spelling? id key := by
  unfold child
  cases found : ms.find? other name with
  | none =>
    have there : (⟨ms.maps.push ∅⟩ : NameMaps).spelling? id key = ms.spelling? id key := by
      unfold spelling?
      rw [Array.getElem?_push, if_neg (Nat.ne_of_lt inside)]
    have larger : id.index < (⟨ms.maps.push ∅⟩ : NameMaps).maps.size :=
      Array.size_push _ ▸ Nat.lt_succ_of_lt inside
    dsimp only
    rw [spelling?_bind larger, there]
    rfl
  | some binding =>
    have kept : ms.spelling? id key =
        if other = id then (NameOp.child name).shown key (ms.spelling? id key)
        else ms.spelling? id key := by
      dsimp only [NameOp.shown]
      split
      next here =>
        subst here
        split
        next same =>
          rw [← same, spelling?_fold, found]
          rfl
        next => rfl
      next => rfl
    obtain ⟨spelling, v⟩ := binding
    cases v <;> exact kept

/-- **A step shows the spellings it should.** -/
theorem spelling?_nameOp (inside : id.index < ms.maps.size) (other : NamespaceId) (op : NameOp)
    (key : String) :
    (ms.nameOp other op).2.spelling? id key =
      if other = id then op.shown key (ms.spelling? id key) else ms.spelling? id key := by
  cases op with
  | set name v => exact spelling?_bind inside other name key v
  | remove name => exact ms.spelling?_unbind id other name key
  | get name => exact (ite_self _).symm
  | contains name => exact (ite_self _).symm
  | child name => exact spelling?_child inside other name key

theorem size_bind (ms : NameMaps) (id : NamespaceId) (name : String) (v : Value) :
    (ms.bind id name v).maps.size = ms.maps.size := Array.size_modify ..

/-- Maps are only added. -/
theorem size_nameOp (ms : NameMaps) (id : NamespaceId) (op : NameOp) :
    ms.maps.size ≤ (ms.nameOp id op).2.maps.size := by
  cases op with
  | set name v => exact (ms.size_bind id name v).ge
  | remove name => exact Array.size_modify.ge
  | get name => exact le_rfl
  | contains name => exact le_rfl
  | child name =>
    dsimp only [nameOp]
    unfold child
    split
    · exact le_rfl
    · exact le_rfl
    · dsimp only
      rw [size_bind, Array.size_push]
      exact Nat.le_succ _

/-- **Operations show the spellings they should.** -/
theorem spelling?_nameOps (inside : id.index < ms.maps.size) (key : String)
    (ops : List (NamespaceId × NameOp)) :
    (ms.nameOps ops).2.spelling? id key = NameOp.shownAfter id key (ms.spelling? id key) ops := by
  induction ops generalizing ms with
  | nil => rfl
  | cons first rest ih =>
    obtain ⟨other, op⟩ := first
    have further := Nat.lt_of_lt_of_le inside (ms.size_nameOp other op)
    rw [NameOp.shownAfter, ← spelling?_nameOp inside]
    exact ih further

end NameMaps

/-! ## Names that are shown -/

/-- The names of a namespace are the spellings of its bindings. -/
theorem Namespace.mem_names {ns : Namespace Value} {name : String} :
    name ∈ ns.names ↔ (ns.binding? name).map (·.1) = some name := by
  rw [names, (List.mergeSort_perm _ _).mem_iff, List.mem_map]
  constructor
  · rintro ⟨e, mem, rfl⟩
    rw [binding?, ns.coherent.find?_sameName mem]
    rfl
  · intro spelled
    obtain ⟨e, found, spelled⟩ := Option.map_eq_some_iff.1 spelled
    exact ⟨e, List.mem_of_find?_eq_some found, spelled⟩

theorem Namespace.nodup_names (ns : Namespace Value) : ns.names.Nodup := by
  have once := ns.coherent.once
  rw [← Function.comp_def Text.fold, ← List.map_map] at once
  exact (List.mergeSort_perm _ _).nodup_iff.2 once.of_map

/-- **Namespaces are finite maps.**  Whatever is done to the namespaces of a heap, a new one among them:
the answers are those of maps from folded names, and the namespaces mean these maps; the two tables of
the new namespace index each other, its names are listed once each, and those listed are the spellings
that were used first since the names were last removed. -/
theorem namespaces_are_maps (h : Heap) (ops : List (NamespaceId × NameOp)) :
    let id := h.newSpace.1
    let played := h.newSpace.2.nameOps ops
    let meant := (⟨h.maps.maps.push ∅⟩ : NameMaps).nameOps ops
    played.1 = meant.1 ∧ played.2.maps = meant.2 ∧ (played.2.space id).toTable.Coherent ∧
      (played.2.space id).names.Nodup ∧
      ∀ name, name ∈ (played.2.space id).names ↔
        NameOp.shownAfter id (Text.fold name) none ops = some name := by
  intro id played meant
  have refines : meant = (played.1, played.2.maps) := by
    rw [← h.newSpace.2.nameOps_maps ops, h.maps_newSpace]
  have size : h.maps.maps.size = h.namespaces.size := Array.size_map
  have inside : id.index < (⟨h.maps.maps.push ∅⟩ : NameMaps).maps.size := by
    show h.namespaces.size < (h.maps.maps.push ∅).size
    rw [Array.size_push, size]
    exact Nat.lt_succ_self _
  have unnamed (key : String) : (⟨h.maps.maps.push ∅⟩ : NameMaps).spelling? id key = none := by
    show (((h.maps.maps.push ∅)[h.namespaces.size]?).bind _) = none
    rw [← size, Array.getElem?_push_size]
    rfl
  refine ⟨(congrArg Prod.fst refines).symm, (congrArg Prod.snd refines).symm,
    (played.2.space id).coherent, (played.2.space id).nodup_names, fun name => ?_⟩
  rw [← unnamed (Text.fold name), ← NameMaps.spelling?_nameOps inside, Namespace.mem_names,
    ← Heap.find?_maps, ← NameMaps.spelling?_fold]
  show _ ↔ meant.2.spelling? id (Text.fold name) = some name
  rw [refines]

end HostScript
