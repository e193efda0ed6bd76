import HostScript.Proofs.Library.Texts

/-!
# Proofs/Library/Indexes — one index of lists, read in two ways

Lists are read and changed at integers by actions of their own, and at all other indexes by the indexer that
the library registers for them.  The two look for the place in different ways, but an integer that is the
number of items before one leads to that item in both, and any other integer fails in both with the same
error (`Store.listGet_eq`, `Store.listSet_eq`).  So it does not matter to a script which way is taken: a float
without a fraction, which goes the other way, does what the integer does (`list_indexes_agree`).
-/

namespace HostScript

/-! ## Places -/

namespace Library

variable {size : ℕ} {i : Int64}

theorem listPlace_of_inside (inside : 0 ≤ i.toInt ∧ i.toInt < size) :
    listPlace size (.int i) = .ok i.toInt.toNat := if_pos inside

theorem listPlace_of_outside (outside : ¬(0 ≤ i.toInt ∧ i.toInt < size)) :
    listPlace size (.int i) = .error (.indexOutOfBounds i size) := if_neg outside

/-- A whole float stands for the same place as its integer. -/
theorem listPlace_float {x : Float} (whole : isWhole x = true) :
    listPlace size (.float x) = listPlace size (.int x.toInt64) := by
  have number : indexNumber (.float x) = .ok x.toInt64 := if_pos whole
  unfold listPlace
  rw [number]
  rfl

end Library

namespace Heap

variable {h : Heap} {id other : ListId} {f : Array Value → Array Value}

theorem list_changeList_of_ne (apart : other ≠ id) : (h.changeList id f).list other = h.list other := by
  have elsewhere : id.index ≠ other.index := fun same => apart (by cases id; cases other; cases same; rfl)
  unfold list changeList
  rw [Array.getElem?_modify, if_neg elsewhere]

theorem list_changeList (empty : f #[] = #[]) : (h.changeList id f).list id = f (h.list id) := by
  unfold list changeList
  rw [Array.getElem?_modify, if_pos rfl]
  cases h.lists[id.index]? with
  | none => exact empty.symm
  | some => rfl

theorem setItem_of_lt {place : ℕ} (there : place < (h.list id).size) (v : Value) :
    h.setItem id place v = (true, h.changeList id (·.setIfInBounds place v)) := if_pos there

theorem setItem_of_le {place : ℕ} (missing : (h.list id).size ≤ place) (v : Value) :
    h.setItem id place v = (false, h) := if_neg (Nat.not_lt.2 missing)

end Heap

/-! ## The two ways -/

namespace Store

variable {s : Store} {registry : Registry} {globals module : NamespaceId} {signature : Signature}
  {id : ListId} {i : Int64} {index v : Value} {info : TypeInfo}

/-- An integer that stands for a place of a list. -/
def HasItem (s : Store) (id : ListId) (i : Int64) : Prop := 0 ≤ i.toInt ∧ i.toInt < (s.list id).size

theorem HasItem.lt (h : s.HasItem id i) : i.toInt.toNat < (s.list id).size := (Int.toNat_lt h.1).2 h.2

theorem HasItem.toNat? (h : s.HasItem id i) : i.toInt.toNat? = some i.toInt.toNat :=
  Int.mem_toNat?.2 (Int.toNat_of_nonneg h.1).symm

theorem size_le_of_not_hasItem {place : ℕ} (h : ¬s.HasItem id i) (counted : i.toInt.toNat? = some place) :
    (s.list id).size ≤ place := by
  have same := Int.mem_toNat?.1 counted
  exact Nat.le_of_not_lt fun there => h ⟨by omega, by omega⟩

/-- A list with another item at a place. -/
def withItem (s : Store) (id : ListId) (place : ℕ) (v : Value) : Store :=
  s.changeHeap fun h => (h.setItem id place v).2

/-- **Reading by the action of lists** answers the item at the place that the indexer looks for. -/
theorem listGet_eq (s : Store) (id : ListId) (i : Int64) : s.listGet id i =
    match Library.listPlace (s.list id).size (.int i) with
    | .ok place => .value ((s.list id)[place]?.getD .null)
    | .error cause => .fail cause := by
  unfold listGet
  dsimp only
  by_cases inside : s.HasItem id i
  · rw [Library.listPlace_of_inside inside, inside.toNat?, Option.bind_some,
      Array.getElem?_eq_getElem inside.lt]
    dsimp only
    rw [Array.getElem?_eq_getElem inside.lt]
    rfl
  · rw [Library.listPlace_of_outside inside]
    have missing : (i.toInt.toNat?.bind fun place => (s.list id)[place]?) = none :=
      Option.bind_eq_none_iff.2 fun place counted =>
        Array.getElem?_eq_none (size_le_of_not_hasItem inside counted)
    rw [missing]

/-- **Assigning by the action of lists** puts the value at the place that the indexer looks for. -/
theorem listSet_eq (s : Store) (id : ListId) (i : Int64) (v : Value) : s.listSet id i v =
    match Library.listPlace (s.list id).size (.int i) with
    | .ok place => (.value v, s.withItem id place v)
    | .error cause => (.fail cause, s) := by
  unfold listSet
  by_cases inside : s.HasItem id i
  · rw [Library.listPlace_of_inside inside, inside.toNat?]
    unfold onHeap withItem changeHeap
    dsimp only
    rw [Heap.setItem_of_lt inside.lt]
    rfl
  · rw [Library.listPlace_of_outside inside]
    cases counted : i.toInt.toNat? with
    | none => rfl
    | some place =>
      unfold onHeap
      dsimp only
      rw [Heap.setItem_of_le (size_le_of_not_hasItem inside counted)]
      rfl

variable (registered : registry.type info = Library.listDraft.described info)
include registered

/-- The indexer of lists reads the item at the place of an index. -/
theorem perform_getIndexer :
    s.perform registry globals module (.getIndexer info) signature [.list id, index] =
      match Library.listPlace (s.list id).size index with
      | .ok place => (.value ((s.list id)[place]?.getD .null), s)
      | .error cause => (.fail cause, s) := by
  have indexer : (registry.type info).indexer? = some Library.listIndexer := by
    rw [registered]
    rfl
  unfold perform
  dsimp only
  rw [indexer]
  show replied (s.onHeap fun h => match Library.listPlace (h.list id).size index with
    | .ok place => (.value ((h.list id)[place]?.getD .null), h)
    | .error cause => (.fail cause, h)) = _
  unfold onHeap
  dsimp only
  cases Library.listPlace (s.list id).size index <;> rfl

/-- The indexer of lists puts a value at the place of an index. -/
theorem perform_setIndexer :
    s.perform registry globals module (.setIndexer info) signature [.list id, index, v] =
      match Library.listPlace (s.list id).size index with
      | .ok place => (.value v, s.withItem id place v)
      | .error cause => (.fail cause, s) := by
  have indexer : (registry.type info).indexer? = some Library.listIndexer := by
    rw [registered]
    rfl
  unfold perform
  dsimp only
  rw [indexer]
  show replied (s.onHeap fun h => match Library.listPlace (h.list id).size index with
    | .ok place => (.value v, (h.setItem id place v).2)
    | .error cause => (.fail cause, h)) = _
  unfold onHeap withItem changeHeap
  dsimp only
  cases Library.listPlace (s.list id).size index <;> rfl

/-- **Both ways agree** on reading and on assigning at an integer. -/
theorem perform_listGet :
    s.perform registry globals module .listGet signature [.list id, .int i] =
      s.perform registry globals module (.getIndexer info) signature [.list id, .int i] := by
  rw [perform_getIndexer registered]
  show (s.listGet id i, s) = _
  rw [listGet_eq]
  cases Library.listPlace (s.list id).size (.int i) <;> rfl

theorem perform_listSet :
    s.perform registry globals module .listSet signature [.list id, .int i, v] =
      s.perform registry globals module (.setIndexer info) signature [.list id, .int i, v] := by
  rw [perform_setIndexer registered]
  exact s.listSet_eq id i v

/-- **A whole float does what its integer does**, in both operations. -/
theorem perform_float {x : Float} (whole : Library.isWhole x = true) :
    s.perform registry globals module (.getIndexer info) .getIndex [.list id, .float x] =
        s.perform registry globals module .listGet .getIndex [.list id, .int x.toInt64] ∧
      s.perform registry globals module (.setIndexer info) .setIndex [.list id, .float x, v] =
        s.perform registry globals module .listSet .setIndex [.list id, .int x.toInt64, v] := by
  rw [perform_listGet registered, perform_listSet registered, perform_getIndexer registered,
    perform_getIndexer registered, perform_setIndexer registered, perform_setIndexer registered,
    Library.listPlace_float whole]
  exact ⟨rfl, rfl⟩

end Store

/-! ## What reading and assigning do -/

namespace Store

variable {s : Store} {id : ListId} {i : Int64} {v : Value}

/-- **Reading at an integer**: the item there, or the failure that there is none; nothing changes. -/
structure ReadsItem (s : Store) (id : ListId) (i : Int64) (result : Outcome × Store) : Prop where
  inside : s.HasItem id i → ∃ v, (s.list id)[i.toInt.toNat]? = some v ∧ result = (.value v, s)
  outside : ¬s.HasItem id i → result = (.fail (.indexOutOfBounds i (s.list id).size), s)

/-- **Assigning at an integer**: the item there is replaced and nothing else changes, or nothing at all
changes and the failure is that there is none. -/
structure WritesItem (s : Store) (id : ListId) (i : Int64) (v : Value) (result : Outcome × Store) :
    Prop where
  inside : s.HasItem id i → result.1 = .value v ∧
    result.2.list id = (s.list id).setIfInBounds i.toInt.toNat v ∧
    (∀ other, other ≠ id → result.2.list other = s.list other) ∧ { result.2 with lists := s.lists } = s
  outside : ¬s.HasItem id i → result = (.fail (.indexOutOfBounds i (s.list id).size), s)

theorem readsItem_listGet (s : Store) (id : ListId) (i : Int64) : s.ReadsItem id i (s.listGet id i, s) := by
  rw [listGet_eq]
  constructor
  · intro inside
    rw [Library.listPlace_of_inside inside]
    refine ⟨_, Array.getElem?_eq_getElem inside.lt, ?_⟩
    dsimp only
    rw [Array.getElem?_eq_getElem inside.lt]
    rfl
  · intro outside
    rw [Library.listPlace_of_outside outside]

theorem writesItem_listSet (s : Store) (id : ListId) (i : Int64) (v : Value) :
    s.WritesItem id i v (s.listSet id i v) := by
  rw [listSet_eq]
  constructor
  · intro inside
    rw [Library.listPlace_of_inside inside]
    have changed : s.withItem id i.toInt.toNat v =
        s.changeHeap (·.changeList id (·.setIfInBounds i.toInt.toNat v)) := by
      unfold withItem changeHeap
      dsimp only
      rw [Heap.setItem_of_lt inside.lt]
    dsimp only
    rw [changed]
    exact ⟨rfl, Heap.list_changeList rfl, fun other apart => Heap.list_changeList_of_ne apart, rfl⟩
  · intro outside
    rw [Library.listPlace_of_outside outside]

end Store

/-! ## The choice between the two -/

/-- The indexer of a list is the one of the first type that describes lists. -/
theorem Surface.Describes.indexerType? {offer : Surface} (h : offer.Describes .list Library.listDraft) :
    ∃ info, offer.registry.type info = Library.listDraft.described info ∧
      ∀ id, offer.indexerType? (.list id) = some info := by
  obtain ⟨info, rest, listed, registered⟩ := h
  refine ⟨info, registered, fun id => ?_⟩
  have indexed : (offer.registry.type info).indexer?.isSome = true := by
    rw [registered]
    rfl
  have first := List.find?_cons_of_pos (l := rest)
    (p := fun info => (offer.registry.type info).indexer?.isSome) indexed
  rw [← listed, List.find?_filter] at first
  refine Eq.trans (congrArg (offer.bound.find? ·) (funext fun other => ?_)) first
  rw [Bool.decide_and, Bool.decide_coe, Bool.decide_coe]

/-- An index that is no integer goes to the indexer. -/
theorem Surface.choose_index {offer : Surface} {id : ListId} {info : TypeInfo} {index : Value}
    (found : offer.indexerType? (.list id) = some info) (other : ∀ i, index ≠ .int i) (v : Value) :
    offer.choose .getIndex [.list id, index] = .getIndexer info ∧
      offer.choose .setIndex [.list id, index, v] = .setIndexer info := by
  show offer.getIndex (.list id) [index] = _ ∧ offer.setIndex (.list id) [index, v] = _
  unfold getIndex setIndex
  cases index with
  | int i => exact absurd rfl (other i)
  | _ =>
    dsimp only
    rw [found]
    exact ⟨rfl, rfl⟩

namespace Store

/-- **A list whose two indexes are one**, in a store and for a type: integers take the way of lists, all else
takes the indexer of the type, and it makes no difference. -/
structure IndexesAlike (s : Store) (registry : Registry) (rt : RuntimeId) (module : NamespaceId)
    (info : TypeInfo) (id : ListId) : Prop where
  integer (i : Int64) (v : Value) :
    ((s.runtime rt).surface registry).choose .getIndex [.list id, .int i] = .listGet ∧
      ((s.runtime rt).surface registry).choose .setIndex [.list id, .int i, v] = .listSet
  other (index v : Value) : (∀ i, index ≠ .int i) →
    ((s.runtime rt).surface registry).choose .getIndex [.list id, index] = .getIndexer info ∧
      ((s.runtime rt).surface registry).choose .setIndex [.list id, index, v] = .setIndexer info
  /-- The two ways to read agree in answer, failure and store. -/
  read (i : Int64) :
    s.perform registry (s.runtime rt).globals module .listGet .getIndex [.list id, .int i] =
      s.perform registry (s.runtime rt).globals module (.getIndexer info) .getIndex [.list id, .int i]
  /-- So do the two ways to assign. -/
  write (i : Int64) (v : Value) :
    s.perform registry (s.runtime rt).globals module .listSet .setIndex [.list id, .int i, v] =
      s.perform registry (s.runtime rt).globals module (.setIndexer info) .setIndex [.list id, .int i, v]
  reads (i : Int64) : s.ReadsItem id i
    (s.perform registry (s.runtime rt).globals module .listGet .getIndex [.list id, .int i])
  writes (i : Int64) (v : Value) : s.WritesItem id i v
    (s.perform registry (s.runtime rt).globals module .listSet .setIndex [.list id, .int i, v])
  /-- Where rules are faithful, a script sees no difference between a whole float and its integer. -/
  float (x : Float) (v : Value) : Library.isWhole x = true → s.Faithful registry →
    Agree (s.dispatch registry rt module .getIndex [.list id, .float x])
        (s.dispatch registry rt module .getIndex [.list id, .int x.toInt64]) ∧
      Agree (s.dispatch registry rt module .setIndex [.list id, .float x, v])
        (s.dispatch registry rt module .setIndex [.list id, .int x.toInt64, v])

/-- Operations that come to one thing afresh come to one thing under faithful rules. -/
theorem Faithful.agree_of_afresh {s : Store} {registry : Registry} {rt : RuntimeId} {module : NamespaceId}
    {signature : Signature} {args others : List Value} (faithful : s.Faithful registry)
    (same : s.dispatchAfresh registry rt module signature args =
      s.dispatchAfresh registry rt module signature others) :
    Agree (s.dispatch registry rt module signature args)
      (s.dispatch registry rt module signature others) := by
  obtain ⟨first, left⟩ := faithful.agree_dispatch (.refl s) rt module signature args
  obtain ⟨second, right⟩ := faithful.agree_dispatch (.refl s) rt module signature others
  rw [same] at first left
  exact ⟨first.trans second.symm, left.trans right.symm⟩

end Store

/-- **Lists have one index.**  In every store of a runtime whose lists are described by the library first, the
actions that lists have for integers and the indexer that the library registers agree for every list, integer
and value, and what they do is to read or to replace the item there, or to fail and change nothing. -/
theorem list_indexes_agree (s : Store) (registry : Registry) (rt : RuntimeId) (module : NamespaceId)
    (described : ((s.runtime rt).surface registry).Describes .list Library.listDraft) :
    ∃ info, registry.type info = Library.listDraft.described info ∧
      ∀ id, s.IndexesAlike registry rt module info id := by
  obtain ⟨info, registered, found⟩ := described.indexerType?
  replace registered : registry.type info = Library.listDraft.described info := registered
  refine ⟨info, registered, fun id => ?_⟩
  constructor
  case integer => exact fun i v => ⟨rfl, rfl⟩
  case other => exact fun index v other => Surface.choose_index (found id) other v
  case read => exact fun i => Store.perform_listGet registered
  case write => exact fun i v => Store.perform_listSet registered
  case reads => exact s.readsItem_listGet id
  case writes => exact s.writesItem_listSet id
  case float =>
    intro x v whole faithful
    have other (i : Int64) : Value.float x ≠ .int i := nofun
    obtain ⟨read, write⟩ := Surface.choose_index (found id) other v
    constructor
    · refine faithful.agree_of_afresh ?_
      unfold Store.dispatchAfresh
      dsimp only
      rw [read]
      exact (Store.perform_float registered (v := v) whole).1
    · refine faithful.agree_of_afresh ?_
      unfold Store.dispatchAfresh
      dsimp only
      rw [write]
      exact (Store.perform_float registered whole).2

theorem Store.runtime_onHeap {α : Type} (s : Store) (f : Heap → α × Heap) (rt : RuntimeId) :
    (s.onHeap f).2.runtime rt = s.runtime rt := rfl

theorem Store.list_newList (s : Store) (items : List Value) :
    (s.onHeap (·.newList items)).2.list (s.onHeap (·.newList items)).1 = items.toArray := by
  show (s.lists.push items.toArray)[s.lists.size]?.getD #[] = _
  rw [Array.getElem?_push_size]
  rfl

/-- The lists of the default host have the members of the library. -/
theorem describes_list_defaultHost (files : Files) :
    (((defaultHost files).2.1.runtime (defaultHost files).2.2).surface
      (defaultHost files).1.registry).Describes .list Library.listDraft := by
  rw [surface_defaultHost]
  exact ⟨_, _, rfl, rfl⟩

/-- A list of two items in the default host: its last item by the indexer, and the place after it. -/
theorem list_indexes_agree_default :
    let host := defaultHost .empty
    let made := host.2.1.onHeap (·.newList [.int 7, .text "a"])
    let globals := (made.2.runtime host.2.2).globals
    ((made.2.runtime host.2.2).surface host.1.registry).Describes .list Library.listDraft ∧
      ∃ info, host.1.registry.type info = Library.listDraft.described info ∧
        made.2.perform host.1.registry globals ⟨0⟩ (.getIndexer info) .getIndex [.list made.1, .int 1] =
          (.value (.text "a"), made.2) ∧
        made.2.perform host.1.registry globals ⟨0⟩ (.setIndexer info) .setIndex
          [.list made.1, .int 2, .null] = (.fail (.indexOutOfBounds 2 2), made.2) := by
  intro host made globals
  have described : ((made.2.runtime host.2.2).surface host.1.registry).Describes .list Library.listDraft := by
    rw [Store.runtime_onHeap]
    exact describes_list_defaultHost .empty
  have items : made.2.list made.1 = #[.int 7, .text "a"] := Store.list_newList _ _
  obtain ⟨info, registered, alike⟩ := list_indexes_agree made.2 host.1.registry host.2.2 ⟨0⟩ described
  refine ⟨described, info, registered, ?_, ?_⟩
  · rw [← (alike made.1).read 1]
    have inside : made.2.HasItem made.1 1 := by
      rw [Store.HasItem, items]
      decide
    obtain ⟨v, there, read⟩ := ((alike made.1).reads 1).inside inside
    rw [items] at there
    obtain rfl : Value.text "a" = v := Option.some.inj there
    exact read
  · rw [← (alike made.1).write 2 .null]
    have outside : ¬made.2.HasItem made.1 2 := by
      rw [Store.HasItem, items]
      decide
    have failed := ((alike made.1).writes 2 .null).outside outside
    rw [items] at failed
    exact failed

end HostScript
