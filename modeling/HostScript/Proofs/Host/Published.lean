import HostScript.Machine
import HostScript.Proofs.Dispatch.Faithful
import HostScript.Proofs.Heap.Paths

/-!
# Proofs/Host/Published — published types are found under their names

To publish a type is to put its handle at a path below the global names, making the namespaces that are
missing (`Heap.put`).  As long as no other type has a name that the path begins with, nothing that is
published stands in the way of the handle or replaces it (`Heap.Keeps.put`), in whatever order types are
published.  A name that is bound to a value, before the last one, lets nothing be put there at all
(`Heap.put_of_stuck`).
-/

namespace HostScript

open Text (dottedParts)

namespace Heap

/-! ## Putting a value at a path -/

/-- Binds the last name of a path, in the namespace that the others lead to. -/
def put (h : Heap) (id : NamespaceId) (v : Value) : List String → Heap
  | [] => h
  | [name] => h.bind id name v
  | part :: rest =>
    match h.child id part with
    | (some inner, h) => h.put inner v rest
    | (none, h) => h

variable {h : Heap} {root id inner : NamespaceId} {part name : String} {rest names : List String}
  {v w : Value}

theorem put_of_space (bound : h.get? id part = some (.space inner)) (more : rest ≠ []) :
    h.put id v (part :: rest) = h.put inner v rest := by
  rw [put.eq_3 _ _ _ _ _ more, child, bound]

theorem put_of_value (bound : h.get? id part = some w) (plain : ∀ inner, w ≠ .space inner)
    (more : rest ≠ []) : h.put id v (part :: rest) = h := by
  rw [put.eq_3 _ _ _ _ _ more, child, bound]
  cases w with
  | space inner => exact absurd rfl (plain inner)
  | _ => rfl

theorem put_of_free (free : h.get? id part = none) (more : rest ≠ []) :
    h.put id v (part :: rest) =
      (h.newSpace.2.bind id part (.space h.newSpace.1)).put h.newSpace.1 v rest := by
  rw [put.eq_3 _ _ _ _ _ more, child, free]

/-- Descending to the namespace of the last name and binding it there. -/
theorem put_eq_descend (more : names ≠ []) :
    h.put id v names =
      match h.descend id names.dropLast with
      | (some space, h) => h.bind space (names.getLast?.getD "") v
      | (none, h) => h := by
  induction names generalizing h id with
  | nil => exact absurd rfl more
  | cons part rest ih =>
    cases rest with
    | nil => rfl
    | cons next rest =>
      rw [put.eq_3 _ _ _ _ _ (List.cons_ne_nil next rest), List.dropLast_cons_cons, descend,
        List.getLast?_cons_cons]
      cases h.child id part with
      | mk inner? h =>
        cases inner? with
        | none => rfl
        | some inner => exact ih nofun

/-- **A name that is bound to a value lets nothing be put below it.** -/
theorem put_of_stuck {front : List String} (more : rest ≠ [])
    (bound : h.find? id front part = some w) (plain : ∀ inner, w ≠ .space inner) :
    h.put id v (front ++ part :: rest) = h := by
  induction front generalizing id with
  | nil => exact put_of_value bound plain more
  | cons first front ih =>
    rw [find?, walk, List.foldlM_cons] at bound
    obtain ⟨id', walked, found⟩ := Option.bind_eq_some_iff.1 bound
    obtain ⟨inner, entered, walked⟩ := Option.bind_eq_some_iff.1 walked
    rw [List.cons_append, put_of_space (get?_of_inner? entered) (by simp)]
    exact ih (Option.bind_eq_some_iff.2 ⟨id', walked, found⟩)

/-! ## A path that stays open -/

variable {path place : List String} {done : Prop}

/-- **A tree that keeps a path for a value**: no name on the way is bound to anything but a namespace,
and what the last one is bound to is the value, once it is there. -/
structure Keeps (root : NamespaceId) (path : List String) (v : Value) (done : Prop) (h : Heap) :
    Prop where
  tree : h.Tree root
  clear : ∀ front name rest, rest ≠ [] → (front ++ name :: rest).map Text.fold = path.map Text.fold →
    h.find? root front name = none ∨ ∃ inner, h.find? root front name = some (.space inner)
  found : done → ∀ front name, (front ++ [name]).map Text.fold = path.map Text.fold →
    h.find? root front name = some v

namespace Keeps

theorem imp {other : Prop} (keeps : h.Keeps root path v done) (fewer : other → done) :
    h.Keeps root path v other := ⟨keeps.tree, keeps.clear, fun yes => keeps.found (fewer yes)⟩

/-- A name before the last one of a path does not begin with what is the whole path, if it is part of
it at all. -/
theorem off_of_more {front : List String} (more : rest ≠ [])
    (whole : (front ++ name :: rest).map Text.fold = path.map Text.fold)
    (own : ¬Off (place ++ [part]) path → (place ++ [part]).map Text.fold = path.map Text.fold) :
    Off (place ++ [part]) (front ++ [name]) := by
  intro begins
  have longer : (front ++ [name]).map Text.fold ++ rest.map Text.fold = path.map Text.fold := by
    rw [← List.map_append, List.append_assoc, List.singleton_append, whole]
  have same := own fun off => off (begins.trans ⟨_, longer⟩)
  have least := begins.length_le
  have sizes := congrArg List.length longer
  have some := List.length_pos_iff.2 more
  rw [same] at least
  rw [List.length_append] at sizes
  have kept : (rest.map Text.fold).length = rest.length := List.length_map _
  omega

/-- **A value at a place that is not on the way** does not stand in the way, and it is what is kept where
the place is the path. -/
theorem bind_value (keeps : h.Keeps root path v done) (leads : h.walk root place = some id)
    (plain : ∀ inner, w ≠ .space inner)
    (own : ¬Off (place ++ [part]) path →
      w = v ∧ (place ++ [part]).map Text.fold = path.map Text.fold) :
    (h.bind id part w).Keeps root path v (done ∨ ¬Off (place ++ [part]) path) := by
  refine ⟨keeps.tree.bind_value leads plain, fun front name rest more whole => ?_, ?_⟩
  · rw [keeps.tree.find?_bind_of_off leads (off_of_more more whole fun on => (own on).2)]
    exact keeps.clear front name rest more whole
  · intro either front name whole
    by_cases off : Off (place ++ [part]) path
    · have aside : Off (place ++ [part]) (front ++ [name]) := fun begins => off (whole ▸ begins)
      rw [keeps.tree.find?_bind_of_off leads aside]
      exact keeps.found (either.resolve_right fun on => on off) front name whole
    · obtain ⟨rfl, same⟩ := own off
      exact keeps.tree.find?_bind_self leads (whole.trans same.symm)

/-- **A namespace that is made at a free place** does not stand in the way. -/
theorem bind_newSpace (keeps : h.Keeps root path v done) (leads : h.walk root place = some id)
    (free : h.get? id part = none) :
    (h.newSpace.2.bind id part (.space h.newSpace.1)).Keeps root path v done := by
  refine ⟨keeps.tree.bind_newSpace leads, fun front name rest more whole => ?_, ?_⟩
  · rcases keeps.tree.find?_bind_newSpace leads front name with same | new
    · rw [same]
      exact keeps.clear front name rest more whole
    · exact new
  · intro yes front name whole
    have there := keeps.found yes front name whole
    have off : Off (place ++ [part]) (front ++ [name]) := fun begins => by
      rw [find?_of_free leads free (fun off => off begins)] at there
      cases there
    rw [keeps.tree.newSpace.find?_bind_of_off (walk_newSpace.trans leads) off, find?_newSpace]
    exact there

/-- **Putting a value at a path** leaves another path open that does not begin with it, and keeps the
value where it is the same path. -/
theorem put (keeps : h.Keeps root path v done) (leads : h.walk root place = some id)
    (plain : ∀ inner, w ≠ .space inner) (more : names ≠ [])
    (own : ¬Off (place ++ names) path → w = v ∧ (place ++ names).map Text.fold = path.map Text.fold) :
    (h.put id w names).Keeps root path v (done ∨ ¬Off (place ++ names) path) := by
  induction names generalizing h id place with
  | nil => exact absurd rfl more
  | cons part rest ih =>
    cases rest with
    | nil => exact keeps.bind_value leads plain own
    | cons next rest =>
      have regroup : place ++ part :: next :: rest = place ++ [part] ++ next :: rest :=
        List.append_cons _ _ _
      cases bound : h.get? id part with
      | none =>
        rw [put_of_free bound (List.cons_ne_nil next rest)]
        rw [regroup] at own ⊢
        exact ih (keeps.bind_newSpace leads bound) (keeps.tree.walk_newSpace_bind leads) nofun own
      | some found =>
        by_cases entered : ∃ inner, found = .space inner
        · obtain ⟨inner, rfl⟩ := entered
          rw [put_of_space bound (List.cons_ne_nil next rest)]
          rw [regroup] at own ⊢
          refine ih keeps ?_ nofun own
          rw [walk_concat, leads]
          exact inner?_of_get? bound
        · rw [put_of_value bound (fun inner same => entered ⟨inner, same⟩) (List.cons_ne_nil next rest)]
          refine keeps.imp fun either => either.resolve_right fun on => ?_
          have whole := (own on).2
          rcases keeps.clear place part (next :: rest) nofun whole with none | ⟨inner, space⟩
          · rw [find?_of_walk leads, bound] at none
            cases none
          · rw [find?_of_walk leads, bound] at space
            exact entered ⟨inner, Option.some.inj space⟩

/-- Below a root without names every path is open. -/
theorem of_empty (inside : root.index < h.namespaces.size) (empty : h.space root = .empty)
    (path : List String) (v : Value) : h.Keeps root path v False := by
  have free (name : String) : h.get? root name = none := by
    rw [get?, empty, Namespace.get?_empty]
  have only {path : List String} {id : NamespaceId} (leads : h.walk root path = some id) :
      path = [] ∧ id = root := by
    cases path with
    | nil => exact ⟨rfl, (Option.some.inj leads).symm⟩
    | cons name rest =>
      rw [walk, List.foldlM_cons, inner?, free] at leads
      cases leads
  refine ⟨⟨fun path id leads => ?_, fun path other id leads leads' => ?_⟩,
    fun front name rest _ _ => .inl ?_, False.elim⟩
  · rw [(only leads).2]
    exact inside
  · rw [(only leads).1, (only leads').1]
  · unfold find?
    cases leads : h.walk root front with
    | none => rfl
    | some id =>
      obtain ⟨-, rfl⟩ := only leads
      exact free name

end Keeps

end Heap

/-! ## Publishing -/

theorem Text.dottedParts_ne_nil (name : String) : dottedParts name ≠ [] := by
  have some (cs : List Char) : partsOf '.' cs ≠ [] := by
    cases cs with
    | nil => exact nofun
    | cons c cs =>
      unfold partsOf
      split
      · exact nofun
      · split <;> exact nofun
  exact fun none => some _ (List.map_eq_nil_iff.1 none)

namespace Store

variable {s : Store} {rt : RuntimeId}

theorem lookUpPath_concat (id : NamespaceId) (front : List String) (name : String) :
    s.lookUpPath id (front ++ [name]) = s.toHeap.find? id front name := by
  induction front generalizing id with
  | nil => rfl
  | cons first front ih =>
    obtain ⟨next, rest, split⟩ := List.exists_cons_of_ne_nil (List.append_ne_nil_of_right_ne_nil front
      (List.cons_ne_nil name []))
    rw [List.cons_append, split, lookUpPath, ← split]
    · rw [Heap.find?_cons, Heap.inner?]
      cases bound : s.toHeap.get? id first with
      | none => rfl
      | some v =>
        cases v with
        | space inner => exact ih inner
        | _ => rfl
    · exact List.cons_ne_nil next rest

/-- Publishing puts the handle of a type at its path, and leaves the root where it is. -/
theorem publish_eq (s : Store) (rt : RuntimeId) (info : TypeInfo) :
    (s.publish rt info).toHeap =
        s.toHeap.put (s.runtime rt).globals (.type info) (dottedParts info.fullName) ∧
      ((s.publish rt info).runtime rt).globals = (s.runtime rt).globals := by
  unfold publish
  dsimp only
  generalize listed : (s.changeRuntime rt _) = u
  have heap : u.toHeap = s.toHeap := by rw [← listed]; rfl
  have globals : (u.runtime rt).globals = (s.runtime rt).globals := by
    rw [← listed]
    rcases s.runtime_changeRuntime rt rt _ with same | ⟨-, same⟩
    · rw [same]
    · rw [same]
      split <;> rfl
  rw [Heap.put_eq_descend (Text.dottedParts_ne_nil _), ← heap, ← globals]
  unfold onHeap
  dsimp only
  cases u.toHeap.descend (u.runtime rt).globals (dottedParts info.fullName).dropLast with
  | mk inner? h => cases inner? <;> exact ⟨rfl, rfl⟩

theorem keeps_publish_all {root : NamespaceId} {info : TypeInfo} {done : Prop} (infos : List TypeInfo)
    (globals : (s.runtime rt).globals = root)
    (keeps : s.toHeap.Keeps root (dottedParts info.fullName) (.type info) done)
    (alone : ∀ other ∈ infos, other ≠ info →
      Heap.Off (dottedParts other.fullName) (dottedParts info.fullName)) :
    ((infos.foldl (·.publish rt) s).runtime rt).globals = root ∧
      (infos.foldl (·.publish rt) s).toHeap.Keeps root (dottedParts info.fullName) (.type info)
        (done ∨ info ∈ infos) := by
  induction infos generalizing s done with
  | nil => exact ⟨globals, keeps.imp fun either => either.resolve_right List.not_mem_nil⟩
  | cons first infos ih =>
    obtain ⟨first_alone, others⟩ := List.forall_mem_cons.1 alone
    obtain ⟨heap, same⟩ := s.publish_eq rt first
    have own (on : ¬Heap.Off (dottedParts first.fullName) (dottedParts info.fullName)) : first = info :=
      Classical.byContradiction fun other => on (first_alone other)
    have further : (s.toHeap.put root (.type first) (dottedParts first.fullName)).Keeps root
        (dottedParts info.fullName) (.type info)
        (done ∨ ¬Heap.Off ([] ++ dottedParts first.fullName) (dottedParts info.fullName)) :=
      keeps.put Heap.walk_nil nofun (Text.dottedParts_ne_nil _) fun on => by
        rw [own on]; exact ⟨rfl, rfl⟩
    rw [← globals, ← heap, globals] at further
    obtain ⟨root_kept, all⟩ := ih (same.trans globals) further others
    refine ⟨root_kept, all.imp fun either => ?_⟩
    rcases either with yes | mem
    · exact .inl (.inl yes)
    · rcases List.mem_cons.1 mem with rfl | later
      · exact .inl (.inr fun off => off (List.prefix_refl _))
      · exact .inr later

end Store

/-- **Published types are reachable.**  After any types have been published below a root without names,
in any order, the name of one of them leads to its handle in any spelling, unless another one has the same
name or one that it begins with; and a type is not published at all below a name that is bound to a
value. -/
theorem published_types_are_reachable :
    (∀ (s : Store) (rt : RuntimeId) (infos : List TypeInfo) (info : TypeInfo),
      (s.runtime rt).globals.index < s.namespaces.size → s.space (s.runtime rt).globals = .empty →
      info ∈ infos →
      (∀ other ∈ infos, other ≠ info → ¬(dottedParts other.fullName).map Text.fold <+:
        (dottedParts info.fullName).map Text.fold) →
      ∀ path : List String, path.map Text.fold = (dottedParts info.fullName).map Text.fold →
        let t := infos.foldl (·.publish rt) s
        t.lookUpPath (t.runtime rt).globals path = some (.type info)) ∧
    ∀ (s : Store) (rt : RuntimeId) (info : TypeInfo) (front : List String) (part : String)
      (rest : List String) (v : Value), dottedParts info.fullName = front ++ part :: rest → rest ≠ [] →
      s.lookUpPath (s.runtime rt).globals (front ++ [part]) = some v → (∀ inner, v ≠ .space inner) →
      (s.publish rt info).toHeap = s.toHeap := by
  refine ⟨?_, ?_⟩
  · intro s rt infos info inside empty mem alone path same
    obtain ⟨globals, keeps⟩ := Store.keeps_publish_all infos rfl
      (Heap.Keeps.of_empty inside empty (dottedParts info.fullName) (.type info)) alone
    have more : path ≠ [] := fun none => by
      rw [none] at same
      exact Text.dottedParts_ne_nil _ (List.map_eq_nil_iff.1 same.symm)
    dsimp only
    rw [globals, ← List.dropLast_concat_getLast more, Store.lookUpPath_concat]
    refine keeps.found (.inr mem) _ _ ?_
    rw [List.dropLast_concat_getLast more, same]
  · intro s rt info front part rest v split more bound plain
    rw [Store.lookUpPath_concat] at bound
    rw [(s.publish_eq rt info).1, split]
    exact Heap.put_of_stuck more bound plain

/-- A store with a root without names, and a runtime that has it. -/
def Store.bare : Store :=
  (Store.empty.newSpace.2.newRuntime ⟨⟨0⟩, [], [], "", .empty, true⟩).2

/-- Types of which one has a name that another one's name begins with. -/
def nestedTypes : List TypeInfo :=
  [⟨⟨0⟩, "A.B.C", none, []⟩, ⟨⟨1⟩, "a.b", none, []⟩, ⟨⟨2⟩, "A.D", none, []⟩]

/-- Folding a text is folding its characters. -/
theorem Text.fold_eq_ofList : Text.fold = fun s => String.ofList (s.toList.map Char.toLower) := by
  funext s
  rw [Text.fold, ← String.toList_map, String.ofList_toList]

/-- A type whose name an earlier one's name begins with takes the place of the namespace that was made
there, and nothing is published below it from then on. -/
theorem published_types_are_reachable_nested :
    (nestedTypes.foldl (·.publish ⟨0⟩) Store.bare).lookUpPath
        ((nestedTypes.foldl (·.publish ⟨0⟩) Store.bare).runtime ⟨0⟩).globals ["A", "B"] =
      some (.type ⟨⟨1⟩, "a.b", none, []⟩) ∧
    ((nestedTypes.foldl (·.publish ⟨0⟩) Store.bare).publish ⟨0⟩ ⟨⟨3⟩, "A.B.E", none, []⟩).toHeap =
      (nestedTypes.foldl (·.publish ⟨0⟩) Store.bare).toHeap := by
  have alone : ∀ other ∈ nestedTypes, other ≠ ⟨⟨1⟩, "a.b", none, []⟩ →
      ¬(dottedParts other.fullName).map Text.fold <+: (dottedParts "a.b").map Text.fold := by
    rw [Text.fold_eq_ofList]
    decide +kernel
  have spelled : ["A", "B"].map Text.fold = (dottedParts "a.b").map Text.fold := by
    rw [Text.fold_eq_ofList]
    decide +kernel
  have parts : dottedParts "A.B.E" = ["A"] ++ "B" :: ["E"] := by decide +kernel
  have found := published_types_are_reachable.1 Store.bare ⟨0⟩ nestedTypes ⟨⟨1⟩, "a.b", none, []⟩
    (by decide) rfl (by decide) alone ["A", "B"] spelled
  have untouched := published_types_are_reachable.2 (nestedTypes.foldl (·.publish ⟨0⟩) Store.bare) ⟨0⟩
    ⟨⟨3⟩, "A.B.E", none, []⟩ ["A"] "B" ["E"] _ parts nofun found nofun
  exact ⟨found, untouched⟩

end HostScript
