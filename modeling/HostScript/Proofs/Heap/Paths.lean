import HostScript.Heap
import Mathlib.Data.List.Induction

/-!
# Proofs/Heap/Paths — namespaces below a root

A path of names leads from a root to a namespace when each of its names is bound to one
(`Heap.walk`), and to what its last name is bound to there (`Heap.find?`); spelling does not matter.  The
namespaces below a root are a tree when no two paths lead to one of them (`Heap.Tree`).  In a tree what is
bound at a place is met by no path but those that begin with the names of the place
(`Tree.find?_bind_of_off`).
-/

namespace HostScript

namespace Heap

/-! ## Paths -/

/-- The namespace that a name is bound to. -/
def inner? (h : Heap) (id : NamespaceId) (name : String) : Option NamespaceId :=
  match h.get? id name with
  | some (.space inner) => some inner
  | _ => none

/-- The namespace that a path leads to. -/
def walk (h : Heap) (root : NamespaceId) (path : List String) : Option NamespaceId :=
  path.foldlM h.inner? root

/-- What a name is bound to in the namespace that a path leads to. -/
def find? (h : Heap) (root : NamespaceId) (path : List String) (name : String) : Option Value :=
  (h.walk root path).bind fun id => h.get? id name

variable {h : Heap} {root id inner : NamespaceId} {name other : String} {path place rest : List String}
  {v : Value}

theorem inner?_of_get? (bound : h.get? id name = some (.space inner)) :
    h.inner? id name = some inner := by
  rw [inner?, bound]

theorem get?_of_inner? (leads : h.inner? id name = some inner) :
    h.get? id name = some (.space inner) := by
  unfold inner? at leads
  split at leads
  next bound =>
    obtain rfl := Option.some.inj leads
    exact bound
  next => cases leads

theorem walk_nil : h.walk root [] = some root := rfl

theorem walk_append : h.walk root (path ++ rest) = (h.walk root path).bind (h.walk · rest) :=
  List.foldlM_append

theorem walk_concat :
    h.walk root (path ++ [name]) = (h.walk root path).bind fun id => h.inner? id name := by
  rw [walk_append]
  refine congrArg (Option.bind _) (funext fun id => ?_)
  cases inner : h.inner? id name <;> rw [walk, List.foldlM_cons, inner] <;> rfl

theorem find?_cons :
    h.find? root (other :: path) name = (h.inner? root other).bind fun inner => h.find? inner path name := by
  unfold find? walk
  rw [List.foldlM_cons]
  exact Option.bind_assoc _ _ _

theorem find?_of_walk (leads : h.walk root path = some id) :
    h.find? root path name = h.get? id name := by
  rw [find?, leads, Option.bind_some]

theorem inner?_congr (same : Text.fold name = Text.fold other) : h.inner? id name = h.inner? id other := by
  unfold inner? get?
  rw [Namespace.get?_congr _ same]

/-- Paths that differ in spelling at most lead to one namespace. -/
theorem walk_congr {path other : List String} (same : path.map Text.fold = other.map Text.fold) :
    h.walk root path = h.walk root other := by
  induction path generalizing root other with
  | nil =>
    obtain rfl := List.map_eq_nil_iff.1 same.symm
    rfl
  | cons name path ih =>
    obtain ⟨name', other, rfl, first, others⟩ := List.map_eq_cons_iff.1 same.symm
    unfold walk at ih ⊢
    rw [List.foldlM_cons, List.foldlM_cons, inner?_congr first]
    exact congrArg (Option.bind _) (funext fun _ => ih others.symm)

/-- A path of one name more, where both parts may be spelled in another way. -/
theorem map_concat_inj {path place : List String}
    (same : (path ++ [name]).map Text.fold = (place ++ [other]).map Text.fold) :
    path.map Text.fold = place.map Text.fold ∧ Text.fold name = Text.fold other := by
  rw [List.map_append, List.map_append] at same
  obtain ⟨front, last⟩ := List.append_inj' same rfl
  exact ⟨front, List.head_eq_of_cons_eq last⟩

theorem find?_congr {path place : List String}
    (same : (path ++ [name]).map Text.fold = (place ++ [other]).map Text.fold) :
    h.find? root path name = h.find? root place other := by
  obtain ⟨front, last⟩ := map_concat_inj same
  unfold find?
  rw [walk_congr front]
  exact congrArg (Option.bind _) (funext fun _ => Namespace.get?_congr _ last)

/-! ## Namespaces that change -/

theorem space_setSpace_of_ne {id other : NamespaceId} (differs : id ≠ other) (h : Heap)
    (table : Namespace Value) : (h.setSpace id table).space other = h.space other := by
  unfold setSpace space
  dsimp only
  rw [Array.getElem?_setIfInBounds_ne]
  intro same
  cases id
  cases other
  exact differs (congrArg NamespaceId.mk same)

theorem space_setSpace_self {id : NamespaceId} (inside : id.index < h.namespaces.size)
    (table : Namespace Value) : (h.setSpace id table).space id = table := by
  unfold setSpace space
  dsimp only
  rw [Array.getElem?_setIfInBounds_self_of_lt inside]
  rfl

theorem space_newSpace (id : NamespaceId) : h.newSpace.2.space id = h.space id := by
  unfold newSpace space
  dsimp only
  rw [Array.getElem?_push]
  split
  next last => rw [last, Array.getElem?_eq_none (Nat.le_refl _)]; rfl
  next => rfl

theorem get?_bind_self (inside : id.index < h.namespaces.size) (same : Text.fold other = Text.fold name) :
    (h.bind id name v).get? id other = some v := by
  unfold bind get?
  rw [space_setSpace_self inside, Namespace.get?_congr _ same, Namespace.get?_insert_self]

theorem get?_bind_of_ne (apart : ¬(inner = id ∧ Text.fold other = Text.fold name)) :
    (h.bind id name v).get? inner other = h.get? inner other := by
  unfold bind get?
  by_cases here : inner = id
  · subst here
    have differs : Text.fold other ≠ Text.fold name := fun same => apart ⟨rfl, same⟩
    by_cases inside : inner.index < h.namespaces.size
    · rw [space_setSpace_self inside, Namespace.get?_insert_of_ne _ _ differs]
    · have outside : (h.setSpace inner ((h.space inner).insert name v)).space inner = h.space inner := by
        unfold setSpace space
        dsimp only
        rw [Array.setIfInBounds_eq_of_size_le (Nat.le_of_not_lt inside)]
      rw [outside]
  · rw [space_setSpace_of_ne (Ne.symm here)]

theorem get?_newSpace : h.newSpace.2.get? id name = h.get? id name := by
  unfold get?
  rw [space_newSpace]

theorem walk_newSpace : h.newSpace.2.walk root path = h.walk root path := by
  unfold walk
  have same : h.newSpace.2.inner? = h.inner? := by
    funext id name
    unfold inner?
    rw [get?_newSpace]
  rw [same]

theorem find?_newSpace : h.newSpace.2.find? root path name = h.find? root path name := by
  unfold find?
  rw [walk_newSpace]
  exact congrArg (Option.bind _) (funext fun _ => get?_newSpace)

/-- The place of a new namespace has been empty before. -/
theorem space_fresh : h.space h.newSpace.1 = .empty := by
  unfold space newSpace
  dsimp only
  rw [Array.getElem?_eq_none (Nat.le_refl _)]
  rfl

theorem get?_fresh (name : String) : h.get? h.newSpace.1 name = none := by
  unfold get?
  rw [space_fresh]
  exact Namespace.get?_empty name

/-! ## Trees -/

/-- **Namespaces below a root that no two paths lead to.** -/
structure Tree (h : Heap) (root : NamespaceId) : Prop where
  inside : ∀ path id, h.walk root path = some id → id.index < h.namespaces.size
  apart : ∀ path other id, h.walk root path = some id → h.walk root other = some id →
    path.map Text.fold = other.map Text.fold

/-- A path that does not begin with the names of a place. -/
def Off (place path : List String) : Prop := ¬place.map Text.fold <+: path.map Text.fold

theorem Off.of_append (off : Off place (path ++ rest)) : Off place path := fun begins => by
  refine off ?_
  rw [List.map_append]
  exact begins.trans (List.prefix_append _ _)

/-- The way to a place does not begin with all names of the place. -/
theorem off_concat_self : Off (place ++ [name]) place := fun begins => by
  have longer := begins.length_le
  rw [List.length_map, List.length_map, List.length_append, List.length_singleton] at longer
  omega

/-- A path that begins with the names of a place leads through it. -/
theorem exists_of_not_off (on : ¬Off place path) :
    ∃ front rest, path = front ++ rest ∧ front.map Text.fold = place.map Text.fold := by
  obtain ⟨more, whole⟩ := Classical.not_not.1 on
  obtain ⟨front, rest, rfl, first, -⟩ := List.map_eq_append_iff.1 whole.symm
  exact ⟨front, rest, rfl, first⟩

/-- Nothing is found at a place that is free, or below it. -/
theorem find?_of_free (leads : h.walk root place = some id) (free : h.get? id name = none)
    (on : ¬Off (place ++ [name]) (path ++ [other])) : h.find? root path other = none := by
  obtain ⟨front, rest, whole, same⟩ := exists_of_not_off on
  rcases List.eq_nil_or_concat rest with rfl | ⟨rest, last, rfl⟩
  · rw [List.append_nil] at whole
    rw [find?_congr (whole ▸ same), find?_of_walk leads, free]
  · rw [List.concat_eq_append, ← List.append_assoc] at whole
    obtain ⟨rfl, -⟩ := List.append_inj' whole rfl
    have stuck : h.inner? id name = none := by rw [inner?, free]
    rw [find?, walk_append, walk_congr same, walk_concat, leads, Option.bind_some, stuck]
    rfl

namespace Tree

variable (tree : h.Tree root) (leads : h.walk root place = some id)
include tree leads

/-- A step of a path that does not begin with the names of a place is not the step into it. -/
theorem step_of_off (off : Off (place ++ [name]) (path ++ [other]))
    (there : h.walk root path = some inner) : ¬(inner = id ∧ Text.fold other = Text.fold name) := by
  rintro ⟨rfl, same⟩
  have whole : (place ++ [name]).map Text.fold = (path ++ [other]).map Text.fold := by
    rw [List.map_append, List.map_append, tree.apart _ _ _ there leads, List.map_singleton,
      List.map_singleton, same]
  exact off (whole ▸ List.prefix_refl _)

theorem walk_bind_of_off (off : Off (place ++ [name]) path) :
    (h.bind id name v).walk root path = h.walk root path := by
  induction path using List.reverseRecOn with
  | nil => rfl
  | append_singleton path other ih =>
    rw [walk_concat, walk_concat, ih off.of_append]
    cases there : h.walk root path with
    | none => rfl
    | some inner =>
      rw [Option.bind_some, Option.bind_some, Heap.inner?, Heap.inner?,
        get?_bind_of_ne (tree.step_of_off leads off there)]

/-- **What is bound at a place is not met by paths that do not begin with its names.** -/
theorem find?_bind_of_off (off : Off (place ++ [name]) (path ++ [other])) :
    (h.bind id name v).find? root path other = h.find? root path other := by
  unfold find?
  rw [tree.walk_bind_of_off leads off.of_append]
  cases there : h.walk root path with
  | none => rfl
  | some inner =>
    rw [Option.bind_some, Option.bind_some, get?_bind_of_ne (tree.step_of_off leads off there)]

/-- **What is bound at a place is met by the paths that are its names.** -/
theorem find?_bind_self
    (same : (path ++ [other]).map Text.fold = (place ++ [name]).map Text.fold) :
    (h.bind id name v).find? root path other = some v := by
  rw [find?_congr same, find?_of_walk ((tree.walk_bind_of_off leads off_concat_self).trans leads)]
  exact get?_bind_self (tree.inside _ _ leads) rfl

/-- What paths through the place of something new lead to. -/
theorem walk_bind_of_on (on : ¬Off (place ++ [name]) path) :
    ∃ rest, path.map Text.fold = ((place ++ [name]) ++ rest).map Text.fold ∧
      (h.bind id name v).walk root path =
        ((h.bind id name v).inner? id name).bind fun inner => (h.bind id name v).walk inner rest := by
  obtain ⟨front, rest, rfl, same⟩ := exists_of_not_off on
  have there : (h.bind id name v).walk root place = some id :=
    (tree.walk_bind_of_off leads off_concat_self).trans leads
  refine ⟨rest, by rw [List.map_append, List.map_append, same], ?_⟩
  rw [walk_append, walk_congr same, walk_concat, there, Option.bind_some]

/-- Below the place of a value that is no namespace there is nothing. -/
theorem bind_value (plain : ∀ inner, v ≠ .space inner) : (h.bind id name v).Tree root := by
  have before {path : List String} {id' : NamespaceId}
      (there : (h.bind id name v).walk root path = some id') : h.walk root path = some id' := by
    by_cases off : Off (place ++ [name]) path
    · exact (tree.walk_bind_of_off leads off).symm.trans there
    · obtain ⟨rest, -, whole⟩ := tree.walk_bind_of_on leads (v := v) off
      have bound := get?_bind_self (v := v) (tree.inside _ _ leads) (Eq.refl (Text.fold name))
      rw [whole] at there
      obtain ⟨inner, entered, -⟩ := Option.bind_eq_some_iff.1 there
      exact absurd (Option.some.inj (bound.symm.trans (get?_of_inner? entered))) (plain inner)
  refine ⟨fun path id' there => ?_, fun path other id' there there' =>
    tree.apart path other id' (before there) (before there')⟩
  exact Nat.lt_of_lt_of_eq (tree.inside path id' (before there)) Array.size_setIfInBounds.symm

end Tree

namespace Tree

variable (tree : h.Tree root)
include tree

theorem newSpace_ne (leads : h.walk root place = some id) : h.newSpace.1 ≠ id := by
  rintro rfl
  exact Nat.lt_irrefl _ (tree.inside _ _ leads)

theorem newSpace : h.newSpace.2.Tree root := by
  refine ⟨fun path id there => ?_, fun path other id there there' => ?_⟩
  · rw [walk_newSpace] at there
    exact Nat.lt_of_lt_of_eq (Nat.lt_succ_of_lt (tree.inside path id there)) (Array.size_push _).symm
  · rw [walk_newSpace] at there there'
    exact tree.apart path other id there there'

variable (leads : h.walk root place = some id)
include leads

/-- **A new namespace at a place** is met by the names of the place; all other paths lead where they led
before. -/
theorem walk_bind_newSpace {id' : NamespaceId}
    (there : (h.newSpace.2.bind id name (.space h.newSpace.1)).walk root path = some id') :
    h.walk root path = some id' ∨
      id' = h.newSpace.1 ∧ path.map Text.fold = (place ++ [name]).map Text.fold := by
  have leads' := walk_newSpace.trans leads
  by_cases off : Off (place ++ [name]) path
  · rw [tree.newSpace.walk_bind_of_off leads' off, walk_newSpace] at there
    exact .inl there
  · obtain ⟨rest, same, whole⟩ := tree.newSpace.walk_bind_of_on leads' (v := .space h.newSpace.1) off
    have bound := inner?_of_get? (get?_bind_self (v := .space h.newSpace.1)
      (tree.newSpace.inside _ _ leads') (Eq.refl (Text.fold name)))
    rw [whole, bound, Option.bind_some] at there
    cases rest with
    | nil =>
      obtain rfl := Option.some.inj there
      exact .inr ⟨rfl, by rw [same, List.append_nil]⟩
    | cons next rest =>
      have empty : (h.newSpace.2.bind id name (.space h.newSpace.1)).inner? h.newSpace.1 next =
          none := by
        rw [inner?, get?_bind_of_ne fun both => tree.newSpace_ne leads both.1, get?_newSpace,
          get?_fresh]
      rw [walk, List.foldlM_cons, empty] at there
      cases there

/-- The names of the place lead to the new namespace. -/
theorem walk_newSpace_bind : (h.newSpace.2.bind id name (.space h.newSpace.1)).walk root (place ++ [name]) =
    some h.newSpace.1 := by
  have before : h.newSpace.2.walk root place = some id := walk_newSpace.trans leads
  have there : (h.newSpace.2.bind id name (.space h.newSpace.1)).walk root place = some id :=
    (tree.newSpace.walk_bind_of_off before off_concat_self).trans before
  rw [walk_concat, there]
  exact inner?_of_get? (get?_bind_self (tree.newSpace.inside _ _ before) rfl)

theorem bind_newSpace : (h.newSpace.2.bind id name (.space h.newSpace.1)).Tree root := by
  have fresh {path : List String} (before : h.walk root path = some h.newSpace.1) : False :=
    tree.newSpace_ne before rfl
  refine ⟨fun path id' there => ?_, fun path other id' there there' => ?_⟩
  · have size : (h.newSpace.2.bind id name (.space h.newSpace.1)).namespaces.size =
        h.namespaces.size + 1 := Array.size_setIfInBounds.trans (Array.size_push _)
    rw [size]
    rcases tree.walk_bind_newSpace leads there with before | ⟨rfl, -⟩
    · exact Nat.lt_succ_of_lt (tree.inside path id' before)
    · exact Nat.lt_succ_self _
  · rcases tree.walk_bind_newSpace leads there with before | ⟨rfl, same⟩ <;>
      rcases tree.walk_bind_newSpace leads there' with before' | ⟨new, same'⟩
    · exact tree.apart path other id' before before'
    · exact (fresh (new ▸ before)).elim
    · exact (fresh before').elim
    · exact same.trans same'.symm

/-- What is found after a new namespace has been bound is what was found before, or it is in the way of
nothing. -/
theorem find?_bind_newSpace (path : List String) (other : String) :
    (h.newSpace.2.bind id name (.space h.newSpace.1)).find? root path other = h.find? root path other ∨
      ((h.newSpace.2.bind id name (.space h.newSpace.1)).find? root path other = none ∨
        ∃ inner, (h.newSpace.2.bind id name (.space h.newSpace.1)).find? root path other =
          some (.space inner)) := by
  cases there : (h.newSpace.2.bind id name (.space h.newSpace.1)).walk root path with
  | none =>
    refine .inr (.inl ?_)
    rw [find?, there]
    rfl
  | some id' =>
    rw [find?_of_walk there]
    by_cases here : id' = id ∧ Text.fold other = Text.fold name
    · obtain ⟨rfl, same⟩ := here
      exact .inr (.inr ⟨_, get?_bind_self (tree.newSpace.inside _ _ (walk_newSpace.trans leads)) same⟩)
    · rw [get?_bind_of_ne here, get?_newSpace]
      rcases tree.walk_bind_newSpace leads there with before | ⟨rfl, -⟩
      · exact .inl (find?_of_walk before).symm
      · exact .inr (.inl (get?_fresh other))

end Tree

end Heap

end HostScript
