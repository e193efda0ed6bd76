import HostScript.Proofs.Dispatch.HostCalls
import HostScript.Proofs.Dispatch.Offered
import Mathlib.Data.Prod.Lex
import Mathlib.Order.Bounds.Basic

/-!
# Proofs/Dispatch/Overloads — which of several members is meant

A written name may mean several members of a value: types may have members whose names differ in case,
methods of one name that take different arguments, and a value may have the members of several types.
The members of one source that fit are its `contenders`, ordered by how well their names are the written
one and then by their places; `FirstBest` is the least of them in the first source that has any.
`members_in_order` says that this is the one that is chosen.
-/

namespace HostScript

/-! ## Ranks -/

/-- **How well a name is a written one**, the best first.  A name may have several ranks. -/
inductive Ranks (written name : String) : ℕ → Prop where
  /-- It is the written name with its first letter in upper case. -/
  | capitalized : name = Text.capitalized written → Ranks written name 0
  | exact : name = written → Ranks written name 1
  /-- It is the written name up to the case of ASCII letters. -/
  | anyCase : Text.fold name = Text.fold written → Ranks written name 2

/-- **The members that a written name may mean**, by rank and then by place: those of the name that
fit. -/
def contenders {α : Type} (nameOf : α → String) (members : List α) (written : String)
    (fits : α → Prop) : Set (ℕ ×ₗ ℕ) :=
  {k | ∃ m, members[(ofLex k).2]? = some m ∧ Ranks written (nameOf m) (ofLex k).1 ∧ fits m}

namespace Spelling

variable {name written : String} {spelling : Spelling}

/-- The rank of a spelling. -/
def rank : Spelling → ℕ
  | capitalized => 0
  | exact => 1
  | anyCase => 2

/-- The spelling of a name is the best of its ranks. -/
theorem isLeast_rank (h : of? name written = some spelling) :
    IsLeast {r | Ranks written name r} spelling.rank := by
  unfold of? at h
  split at h
  next same =>
    obtain rfl := Option.some.inj h
    exact ⟨.capitalized same, fun r _ => Nat.zero_le r⟩
  next other =>
    split at h
    next same =>
      obtain rfl := Option.some.inj h
      refine ⟨.exact same, ?_⟩
      rintro r (upper | _ | _)
      · exact absurd upper other
      · exact Nat.le_refl 1
      · exact Nat.le_succ 1
    next different =>
      split at h
      next same =>
        obtain rfl := Option.some.inj h
        refine ⟨.anyCase same, ?_⟩
        rintro r (upper | exactly | _)
        · exact absurd upper other
        · exact absurd exactly different
        · exact Nat.le_refl 2
      next => cases h

/-- A name that has a rank has a spelling. -/
theorem isSome_of_ranks {r : ℕ} (h : Ranks written name r) : (of? name written).isSome := by
  unfold of?
  split
  · rfl
  next other =>
    split
    · rfl
    next different =>
      cases h with
      | capitalized same => exact absurd same other
      | exact same => exact absurd same different
      | anyCase same => rw [if_pos same]; rfl

end Spelling

/-! ## The members of a name -/

/-- What is found first in a list that is sorted by a key has the least key of all that could be
found. -/
theorem isLeast_of_find? {β κ : Type} [Preorder κ] {key : β → κ} {l : List β}
    (sorted : l.Pairwise fun a b => key a < key b) {p : β → Bool} {b : β} (found : l.find? p = some b) :
    IsLeast {k | ∃ a ∈ l, p a = true ∧ key a = k} (key b) := by
  obtain ⟨holds, before, after, rfl, none⟩ := List.find?_eq_some_iff_append.1 found
  refine ⟨⟨b, List.mem_append_right _ List.mem_cons_self, holds, rfl⟩, ?_⟩
  rintro k ⟨a, mem, passes, rfl⟩
  rcases List.mem_append.1 mem with earlier | here
  · have fails := none a earlier
    rw [passes] at fails
    cases fails
  · rcases List.mem_cons.1 here with rfl | later
    · exact le_rfl
    · have rest := (List.pairwise_append.1 sorted).2.1
      exact le_of_lt ((List.pairwise_cons.1 rest).1 a later)

section Members

variable {α : Type} {nameOf : α → String} {members : List α} {written : String}

/-- The rank and the place of a member. -/
def standing (nameOf : α → String) (written : String) (m : α × ℕ) : ℕ ×ₗ ℕ :=
  toLex ((Spelling.of? (nameOf m.1) written).elim 3 Spelling.rank, m.2)

theorem mem_membersNamed {m : α × ℕ} :
    m ∈ membersNamed nameOf members written ↔
      members[m.2]? = some m.1 ∧ (Spelling.of? (nameOf m.1) written).isSome := by
  unfold membersNamed
  rw [List.mem_flatMap]
  constructor
  · rintro ⟨spelling, -, mem⟩
    obtain ⟨placed, spelled⟩ := List.mem_filter.1 mem
    rw [of_decide_eq_true spelled]
    exact ⟨List.mem_zipIdx_iff_getElem?.1 placed, rfl⟩
  · rintro ⟨placed, spelled⟩
    obtain ⟨spelling, same⟩ := Option.isSome_iff_exists.1 spelled
    refine ⟨spelling, by cases spelling <;> decide, List.mem_filter.2 ⟨?_, decide_eq_true same⟩⟩
    exact List.mem_zipIdx_iff_getElem?.2 placed

/-- **The members of a name are listed by rank and then by place.** -/
theorem sorted_membersNamed : (membersNamed nameOf members written).Pairwise
    fun a b => standing nameOf written a < standing nameOf written b := by
  have placed : members.zipIdx.Pairwise fun a b => a.2 < b.2 := by
    refine List.pairwise_map.1 ?_
    rw [List.zipIdx_map_snd]
    exact List.pairwise_lt_range'
  have spelled {spelling : Spelling} {m : α × ℕ}
      (mem : m ∈ members.zipIdx.filter fun m => Spelling.of? (nameOf m.1) written = some spelling) :
      standing nameOf written m = toLex (spelling.rank, m.2) := by
    unfold standing
    rw [of_decide_eq_true (List.mem_filter.1 mem).2]
    rfl
  refine List.pairwise_flatMap.2 ⟨fun spelling _ => ?_, ?_⟩
  · refine (placed.filter _).imp_of_mem fun first second before => ?_
    rw [spelled first, spelled second]
    exact Prod.Lex.toLex_lt_toLex.2 (.inr ⟨rfl, before⟩)
  · have better : Spelling.all.Pairwise fun a b => a.rank < b.rank := by decide
    refine better.imp fun {a b} less m first other second => ?_
    rw [spelled first, spelled second]
    exact Prod.Lex.toLex_lt_toLex.2 (.inl less)

variable {fits : α → Prop} {p : α × ℕ → Bool}

/-- **What a search among the members of a name finds is the best contender.** -/
theorem isLeast_of_find?_membersNamed (test : ∀ m, p m = true ↔ fits m.1) {m : α} {index : ℕ}
    (found : (membersNamed nameOf members written).find? p = some (m, index)) :
    members[index]? = some m ∧
      ∃ rank, IsLeast (contenders nameOf members written fits) (toLex (rank, index)) := by
  obtain ⟨placed, spelled⟩ := mem_membersNamed.1 (List.mem_of_find?_eq_some found)
  obtain ⟨spelling, same⟩ := Option.isSome_iff_exists.1 spelled
  have own : standing nameOf written (m, index) = toLex (spelling.rank, index) := by
    unfold standing
    rw [same]
    rfl
  have passes := (test (m, index)).1 (List.find?_some found)
  have least := (isLeast_of_find? sorted_membersNamed found).2
  refine ⟨placed, spelling.rank, ⟨m, placed, (Spelling.isLeast_rank same).1, passes⟩, ?_⟩
  rintro k ⟨other, there, ranks, fitting⟩
  obtain ⟨better, known⟩ := Option.isSome_iff_exists.1 (Spelling.isSome_of_ranks ranks)
  have before : toLex (spelling.rank, index) ≤ standing nameOf written (other, (ofLex k).2) :=
    own ▸ least ⟨(other, (ofLex k).2), mem_membersNamed.2 ⟨there, Spelling.isSome_of_ranks ranks⟩,
      (test _).2 fitting, rfl⟩
  have best : standing nameOf written (other, (ofLex k).2) ≤ k := by
    unfold standing
    rw [known]
    exact Prod.Lex.toLex_mono ⟨(Spelling.isLeast_rank known).2 ranks, le_rfl⟩
  exact before.trans best

theorem find?_membersNamed_eq_none_iff (test : ∀ m, p m = true ↔ fits m.1) :
    (membersNamed nameOf members written).find? p = none ↔
      contenders nameOf members written fits = ∅ := by
  rw [List.find?_eq_none, Set.eq_empty_iff_forall_notMem]
  constructor
  · rintro none k ⟨m, placed, ranks, fitting⟩
    exact none (m, (ofLex k).2) (mem_membersNamed.2 ⟨placed, Spelling.isSome_of_ranks ranks⟩)
      ((test _).2 fitting)
  · intro none m mem passes
    obtain ⟨placed, spelled⟩ := mem_membersNamed.1 mem
    obtain ⟨spelling, same⟩ := Option.isSome_iff_exists.1 spelled
    exact none (toLex (spelling.rank, m.2))
      ⟨m.1, placed, (Spelling.isLeast_rank same).1, (test m).1 passes⟩

end Members

/-! ## Sources -/

/-- **The best in the first source that has any**: nothing is found in the sources before it, and no
other that is found in it has a lower rank, or the same rank and a lower place. -/
def FirstBest (found : TypeInfo × Receiver → Set (ℕ ×ₗ ℕ)) (sources : List (TypeInfo × Receiver))
    (source : TypeInfo × Receiver) (index : ℕ) : Prop :=
  ∃ before after rank, sources = before ++ source :: after ∧ (∀ other ∈ before, found other = ∅) ∧
    IsLeast (found source) (toLex (rank, index))

namespace Surface

section Search

variable {α : Type} {sources : List (TypeInfo × Receiver)} {source : TypeInfo × Receiver}

theorem findInSources_of_before {find : TypeInfo × Receiver → Option α} {hit : α}
    {before after : List (TypeInfo × Receiver)} (free : ∀ other ∈ before, find other = none)
    (here : find source = some hit) :
    findInSources find (before ++ source :: after) = some (source, hit) := by
  induction before with
  | nil => rw [List.nil_append, findInSources, here]
  | cons first before ih =>
    rw [List.cons_append, findInSources, free first List.mem_cons_self]
    exact ih fun other mem => free other (List.mem_cons_of_mem first mem)

theorem before_of_findInSources {find : TypeInfo × Receiver → Option α} {hit : α}
    (h : findInSources find sources = some (source, hit)) :
    ∃ before after, sources = before ++ source :: after ∧ ∀ other ∈ before, find other = none := by
  induction sources with
  | nil => cases h
  | cons first rest ih =>
    rw [findInSources] at h
    cases here : find first with
    | some other =>
      rw [here] at h
      obtain ⟨rfl, -⟩ := Prod.mk.inj (Option.some.inj h)
      exact ⟨[], rest, rfl, List.forall_mem_nil _⟩
    | none =>
      rw [here] at h
      obtain ⟨before, after, rfl, free⟩ := ih h
      exact ⟨first :: before, after, rfl, List.forall_mem_cons.2 ⟨here, free⟩⟩

theorem findInSources_eq_none_iff {find : TypeInfo × Receiver → Option α} :
    findInSources find sources = none ↔ ∀ source ∈ sources, find source = none := by
  induction sources with
  | nil => exact iff_of_true rfl (List.forall_mem_nil _)
  | cons first rest ih =>
    rw [findInSources, List.forall_mem_cons]
    cases here : find first with
    | some other =>
      exact iff_of_false (Option.some_ne_none _) fun both => absurd both.1 (Option.some_ne_none other)
    | none => exact ih.trans (and_iff_right rfl).symm

/-- **What is found in sources is the best in the first that has any**, if so it is in each. -/
theorem firstBest_iff {find : TypeInfo × Receiver → Option (α × ℕ)}
    {found : TypeInfo × Receiver → Set (ℕ ×ₗ ℕ)}
    (some_best : ∀ source m index, find source = some (m, index) →
      ∃ rank, IsLeast (found source) (toLex (rank, index)))
    (none_iff : ∀ source, find source = none ↔ found source = ∅) {index : ℕ} :
    FirstBest found sources source index ↔
      ∃ m, findInSources find sources = some (source, m, index) := by
  constructor
  · rintro ⟨before, after, rank, rfl, free, least⟩
    have any : find source ≠ none := fun never =>
      Set.notMem_empty _ ((none_iff source).1 never ▸ least.1)
    obtain ⟨⟨m, place⟩, here⟩ := Option.ne_none_iff_exists'.1 any
    obtain ⟨best, other⟩ := some_best source m place here
    obtain ⟨-, rfl⟩ := Prod.mk.inj (toLex.injective (other.unique least))
    exact ⟨m, findInSources_of_before (fun other mem => (none_iff other).2 (free other mem)) here⟩
  · rintro ⟨m, hit⟩
    obtain ⟨before, after, rfl, free⟩ := before_of_findInSources hit
    obtain ⟨rank, least⟩ := some_best source m index (of_findInSources hit)
    exact ⟨before, after, rank, rfl, fun other mem => (none_iff other).1 (free other mem), least⟩

end Search

/-! ## Members -/

/-- A member of a source is static just if the source has static members. -/
def Fitting (source : TypeInfo × Receiver) (isStatic : Bool) : Prop :=
  isStatic = true ↔ source.2 = .static

/-- The methods of a source that a written name may mean. -/
def named (offer : Surface) (written : String) (source : TypeInfo × Receiver) : Set (ℕ ×ₗ ℕ) :=
  contenders Method.name (offer.registry.type source.1).methods written fun m =>
    Fitting source m.isStatic

/-- **The methods of a source that a written name may mean for arguments**: those that take as many, all of
them of the types of the parameters as they are. -/
def callable (offer : Surface) (written : String) (args : List Value) (source : TypeInfo × Receiver) :
    Set (ℕ ×ₗ ℕ) :=
  contenders Method.name (offer.registry.type source.1).methods written fun m =>
    Fitting source m.isStatic ∧
      List.Forall₂ (fun p v => p.out = false ∧ p.type.accepts v = true) m.params args

/-- The properties of a source that a written name may mean. -/
def readable (offer : Surface) (written : String) (source : TypeInfo × Receiver) : Set (ℕ ×ₗ ℕ) :=
  contenders Property.name (offer.registry.type source.1).properties written fun p =>
    Fitting source p.isStatic

variable {offer : Surface} {written : String} {v : Value} {args : List Value}
  {sources : List (TypeInfo × Receiver)}

theorem fitting_iff (source : TypeInfo × Receiver) (isStatic : Bool) :
    (isStatic == (source.2 == .static)) = true ↔ Fitting source isStatic := by
  unfold Fitting
  rw [beq_iff_eq, Bool.eq_iff_iff, beq_iff_eq]

theorem methodsNamed_isEmpty_iff (source : TypeInfo × Receiver) :
    (offer.methodsNamed written source).isEmpty = true ↔ offer.named written source = ∅ := by
  unfold methodsNamed named
  rw [← find?_membersNamed_eq_none_iff fun m => fitting_iff source m.1.isStatic, List.isEmpty_iff,
    List.filter_eq_nil_iff, List.find?_eq_none]

/-- The first method of a source that takes arguments, if it has any. -/
def taking? (offer : Surface) (written : String) (args : List Value) (source : TypeInfo × Receiver) :
    Option (Method × ℕ) :=
  (offer.methodsNamed written source).find? fun m => Params.accept m.1.params args

theorem taking?_eq (source : TypeInfo × Receiver) :
    offer.taking? written args source =
      (membersNamed Method.name (offer.registry.type source.1).methods written).find? fun m =>
        (m.1.isStatic == (source.2 == .static)) && Params.accept m.1.params args := by
  unfold taking? methodsNamed
  rw [List.find?_filter]
  refine congrArg (fun p => List.find? p _) (funext fun m => ?_)
  rw [Bool.decide_and, Bool.decide_eq_true, Bool.decide_eq_true]

theorem takes_iff (source : TypeInfo × Receiver) (m : Method × ℕ) :
    ((m.1.isStatic == (source.2 == .static)) && Params.accept m.1.params args) = true ↔
      Fitting source m.1.isStatic ∧
        List.Forall₂ (fun p v => p.out = false ∧ p.type.accepts v = true) m.1.params args := by
  rw [Bool.and_eq_true, fitting_iff, Params.accept_iff]

theorem taking?_eq_none_iff (source : TypeInfo × Receiver) :
    offer.taking? written args source = none ↔ offer.callable written args source = ∅ := by
  rw [taking?_eq]
  exact find?_membersNamed_eq_none_iff (takes_iff source)

theorem property?_eq_none_iff (source : TypeInfo × Receiver) :
    offer.property? written source = none ↔ offer.readable written source = ∅ :=
  find?_membersNamed_eq_none_iff fun p => fitting_iff source p.1.isStatic

theorem of_property? {source : TypeInfo × Receiver} {p : Property} {index : ℕ}
    (found : offer.property? written source = some (p, index)) :
    (offer.registry.type source.1).properties[index]? = some p ∧
      ∃ rank, IsLeast (offer.readable written source) (toLex (rank, index)) :=
  isLeast_of_find?_membersNamed (fun p => fitting_iff source p.1.isStatic) found

/-- What is called is the best in the first source that has any. -/
theorem firstBest_callable_iff {source : TypeInfo × Receiver} {index : ℕ} :
    FirstBest (offer.callable written args) sources source index ↔
      ∃ m, findInSources (offer.taking? written args) sources = some (source, m, index) :=
  firstBest_iff (fun source _ _ found =>
    (isLeast_of_find?_membersNamed (takes_iff source) (taking?_eq source ▸ found)).2) taking?_eq_none_iff

/-- What is read or assigned is the best in the first source that has any. -/
theorem firstBest_readable_iff {source : TypeInfo × Receiver} {index : ℕ} :
    FirstBest (offer.readable written) sources source index ↔
      ∃ p, findInSources (offer.property? written) sources = some (source, p, index) :=
  firstBest_iff (fun _ _ _ found => (of_property? found).2) property?_eq_none_iff

/-! ## Operations on members -/

/-- **What operations on the members of a value mean**, where the members are those of some sources. -/
structure InOrder (offer : Surface) (written : String) (v : Value) (args : List Value)
    (sources : List (TypeInfo × Receiver)) : Prop where
  /-- A method that is called is the best that takes the arguments. -/
  call (type : TypeInfo) (index : ℕ) (receiver : Receiver) :
    offer.choose (.invokeMember written args.length) (v :: args) =
        .invokeMethod type index receiver ↔
      FirstBest (offer.callable written args) sources (type, receiver) index
  /-- There are methods of the name, but none that takes the arguments. -/
  unmatched : (∀ source ∈ sources, offer.callable written args source = ∅) →
    (∃ source ∈ sources, (offer.named written source).Nonempty) →
      offer.choose (.invokeMember written args.length) (v :: args) =
        .fail (.noMatchingOverload written v.typeName args.length)
  /-- There are no methods of the name. -/
  missing : (∀ source ∈ sources, offer.named written source = ∅) →
    offer.choose (.invokeMember written args.length) (v :: args) =
      .fail (.missingMember written v.typeName)
  /-- A property that is read is the best. -/
  read (type : TypeInfo) (index : ℕ) (receiver : Receiver) :
    offer.choose (.getMember written) [v] = .getProperty type index receiver ↔
      FirstBest (offer.readable written) sources (type, receiver) index
  /-- There are no properties of the name to be read. -/
  unread : (∀ source ∈ sources, offer.readable written source = ∅) →
    offer.choose (.getMember written) [v] = .fail (.missingMember written v.typeName)
  /-- A property that is assigned is the best, whether it can be assigned or not. -/
  write (type : TypeInfo) (index : ℕ) (receiver : Receiver) (x : Value) :
    FirstBest (offer.readable written) sources (type, receiver) index →
      ∃ p, (offer.registry.type type).properties[index]? = some p ∧
        offer.choose (.setMember written) [v, x] =
          if p.set? = none ∨ receiver = .static then .fail (.readOnlyMember p.name type.name)
          else .setProperty type index
  /-- There are no properties of the name to be assigned. -/
  unwritten (x : Value) : (∀ source ∈ sources, offer.readable written source = ∅) →
    offer.choose (.setMember written) [v, x] = .fail (.missingMember written v.typeName)

section

variable {v : Value} (plain : ∀ id, v ≠ .space id) {type : TypeInfo} {receiver : Receiver} {index : ℕ}
include plain

/-- The method that is called is the one that is found. -/
theorem choose_invokeMember_of_found {m : Method}
    (found : findInSources (offer.taking? written args) (offer.memberSources v) =
      some ((type, receiver), m, index)) :
    offer.choose (.invokeMember written args.length) (v :: args) =
      .invokeMethod type index receiver := by
  show offer.invokeMember written v args = _
  unfold taking? at found
  unfold invokeMember
  split
  next id => exact absurd rfl (plain id)
  next =>
    dsimp only
    rw [found]

/-- Where no method is found, it depends on whether there are methods of the name at all. -/
theorem choose_invokeMember_of_none
    (none : findInSources (offer.taking? written args) (offer.memberSources v) = .none) :
    offer.choose (.invokeMember written args.length) (v :: args) =
      if (offer.memberSources v).all fun source => (offer.methodsNamed written source).isEmpty then
        .fail (.missingMember written v.typeName)
      else .fail (.noMatchingOverload written v.typeName args.length) := by
  show offer.invokeMember written v args = _
  unfold taking? at none
  unfold invokeMember
  split
  next id => exact absurd rfl (plain id)
  next =>
    dsimp only
    rw [none]

/-- The property that is read is the one that is found, and so is the one that is assigned. -/
theorem choose_property_of_found {p : Property} (x : Value)
    (found : findInSources (offer.property? written) (offer.memberSources v) =
      some ((type, receiver), p, index)) :
    offer.choose (.getMember written) [v] = .getProperty type index receiver ∧
      offer.choose (.setMember written) [v, x] =
        if p.set? = none ∨ receiver = .static then .fail (.readOnlyMember p.name type.name)
        else .setProperty type index := by
  constructor
  · show offer.getMember written v = _
    unfold getMember
    split
    next id => exact absurd rfl (plain id)
    next => rw [found]
  · show offer.setMember written v = _
    unfold setMember
    split
    next id => exact absurd rfl (plain id)
    next =>
      rw [found]
      simp only [Bool.or_eq_true, Option.isNone_iff_eq_none, decide_eq_true_eq]

/-- Where no property is found, there is none. -/
theorem choose_property_of_none (x : Value)
    (none : findInSources (offer.property? written) (offer.memberSources v) = .none) :
    offer.choose (.getMember written) [v] = .fail (.missingMember written v.typeName) ∧
      offer.choose (.setMember written) [v, x] = .fail (.missingMember written v.typeName) := by
  constructor
  · show offer.getMember written v = _
    unfold getMember
    split
    next id => exact absurd rfl (plain id)
    next => rw [none]
  · show offer.setMember written v = _
    unfold setMember
    split
    next id => exact absurd rfl (plain id)
    next => rw [none]

end

/-- **Operations on members choose the best of the first source** among the members of a value. -/
theorem inOrder (plain : ∀ id, v ≠ .space id) : offer.InOrder written v args (offer.memberSources v) := by
  have uncalled (none : ∀ source ∈ offer.memberSources v, offer.callable written args source = ∅) :
      findInSources (offer.taking? written args) (offer.memberSources v) = .none :=
    findInSources_eq_none_iff.2 fun source mem => (taking?_eq_none_iff source).2 (none source mem)
  have unread (none : ∀ source ∈ offer.memberSources v, offer.readable written source = ∅) :
      findInSources (offer.property? written) (offer.memberSources v) = .none :=
    findInSources_eq_none_iff.2 fun source mem => (property?_eq_none_iff source).2 (none source mem)
  refine ⟨fun type index receiver => ?_, fun free there => ?_, fun free => ?_, fun type index receiver => ?_,
    fun free => ?_, fun type index receiver x best => ?_, fun x free => ?_⟩
  · rw [firstBest_callable_iff]
    constructor
    · intro chosen
      cases found : findInSources (offer.taking? written args) (offer.memberSources v) with
      | none =>
        rw [choose_invokeMember_of_none plain found] at chosen
        split at chosen <;> cases chosen
      | some there =>
        obtain ⟨⟨type', receiver'⟩, m, index'⟩ := there
        rw [choose_invokeMember_of_found plain found] at chosen
        obtain ⟨rfl, rfl, rfl⟩ := Action.invokeMethod.inj chosen
        exact ⟨m, rfl⟩
    · rintro ⟨m, found⟩
      exact choose_invokeMember_of_found plain found
  · rw [choose_invokeMember_of_none plain (uncalled free)]
    refine if_neg fun all => ?_
    obtain ⟨source, mem, some⟩ := there
    have empty := (methodsNamed_isEmpty_iff source).1 (List.all_eq_true.1 all source mem)
    exact some.ne_empty empty
  · rw [choose_invokeMember_of_none plain (uncalled fun source mem => ?_)]
    · refine if_pos (List.all_eq_true.2 fun source mem => ?_)
      exact (methodsNamed_isEmpty_iff source).2 (free source mem)
    · refine Set.subset_empty_iff.1 (free source mem ▸ ?_)
      rintro k ⟨m, placed, ranks, fitting, -⟩
      exact ⟨m, placed, ranks, fitting⟩
  · rw [firstBest_readable_iff]
    constructor
    · intro chosen
      cases found : findInSources (offer.property? written) (offer.memberSources v) with
      | none =>
        rw [(choose_property_of_none plain .null found).1] at chosen
        cases chosen
      | some there =>
        obtain ⟨⟨type', receiver'⟩, p, index'⟩ := there
        rw [(choose_property_of_found plain .null found).1] at chosen
        obtain ⟨rfl, rfl, rfl⟩ := Action.getProperty.inj chosen
        exact ⟨p, rfl⟩
    · rintro ⟨p, found⟩
      exact (choose_property_of_found plain .null found).1
  · exact (choose_property_of_none plain .null (unread free)).1
  · obtain ⟨p, found⟩ := firstBest_readable_iff.1 best
    exact ⟨p, (of_property? (of_findInSources found)).1, (choose_property_of_found plain x found).2⟩
  · exact (choose_property_of_none plain x (unread free)).2

end Surface

/-- **Members are chosen in order.**  For every value but a namespace, a member is looked for among the
members of its own type if it is an instance; among the static members of the type and then among those
of the type of types, which get the handle, if it is a type handle; among those of the types that are bound
to its kind, in the order of loading, if it is of a kind without types of its own; and else nowhere.  What a
name means there is the best in the first source that has any.  The rules of a runtime remember nothing
else: wherever a session has come to since a runtime has been built, what is decided is what is chosen
from the libraries and the instances that it has been built with. -/
theorem members_in_order (registry : Registry) :
    (∀ (bound : List TypeInfo) (instances : List HostObject) (written : String) (args : List Value),
      (∀ o : HostObject, Surface.InOrder ⟨registry, bound, instances⟩ written (.object o) args
        [(o.type, .target)]) ∧
      (∀ info : TypeInfo, Surface.InOrder ⟨registry, bound, instances⟩ written (.type info) args
        [(info, .static), (metaInfo, .target)]) ∧
      (∀ (v : Value) (kind : Primitive), v.primitive? = some kind →
        Surface.InOrder ⟨registry, bound, instances⟩ written v args
          ((bound.filter (·.primitive? = some kind)).map fun info => (info, .target))) ∧
      ∀ v : Value, v.primitive? = none → (∀ o, v ≠ .object o) → (∀ info, v ≠ .type info) →
        (∀ id, v ≠ .space id) → Surface.InOrder ⟨registry, bound, instances⟩ written v args []) ∧
    ∀ (s t : Store) (rt : RuntimeId) (libraries : List (List TypeInfo)) (instances : List HostObject)
      (extension : String) (past : List Config) (phase : Phase), Reached registry s →
        s.buildRuntime registry libraries instances extension = (rt, t) →
          Course (Over registry) (.idle t) past phase → ∀ (signature : Signature) (args : List Value),
            (phase.store.decide registry rt signature args).1 =
              Surface.choose ⟨registry, boundTypes libraries, instances⟩ signature args := by
  refine ⟨fun bound instances written args => ⟨fun o => ?_, fun info => ?_, fun v kind of_kind => ?_,
    fun v none object handle space => ?_⟩, ?_⟩
  · exact Surface.inOrder nofun
  · exact Surface.inOrder nofun
  · have sources : Surface.memberSources ⟨registry, bound, instances⟩ v =
        (bound.filter (·.primitive? = some kind)).map fun info => (info, .target) := by
      cases v <;> cases of_kind <;> rfl
    rw [← sources]
    refine Surface.inOrder fun id same => ?_
    rw [same] at of_kind
    cases of_kind
  · have sources : Surface.memberSources ⟨registry, bound, instances⟩ v = [] := by
      cases v with
      | object o => exact absurd rfl (object o)
      | type info => exact absurd rfl (handle info)
      | space id => exact absurd rfl (space id)
      | null => rfl
      | function f => rfl
      | _ => cases none
    rw [← sources]
    exact Surface.inOrder space
  · intro s t rt libraries instances extension past phase reached built course signature args
    exact decide_of_built reached built course signature args

/-- A type that describes texts, with methods whose names differ in case, in what they take, and in being
static. -/
def gauge : TypeDraft :=
  let echo (name : String) (params : List Param) : Method :=
    .onValue name params fun v _ => .pure (.value v)
  ((TypeDraft.named "Gauge").describing .text)
    |>.method (echo "area" [.ofType .int])
    |>.method (echo "Area" [.ofType .text])
    |>.method (.static "Area" [.ofType .int] fun _ => .pure (.value .null))
    |>.method (echo "Area" [.ofType .int])

/-- The types of a host that describes texts twice, first without members. -/
def gaugeHost : List TypeInfo × Registry :=
  Registry.initial.registerAll [(TypeDraft.named "Plain").describing .text, gauge]

/-- What that host knows of the second. -/
def gaugeInfo : TypeInfo := ⟨⟨2⟩, "Gauge", some .text, []⟩

/-- A method of an instance and one of its type, called under one name, and a method of a text that the
type loaded last has. -/
theorem members_in_order_gauge :
    FirstBest (Surface.callable ⟨gaugeHost.2, [], []⟩ "area" [.int 1]) [(gaugeInfo, .target)]
        (gaugeInfo, .target) 3 ∧
      FirstBest (Surface.callable ⟨gaugeHost.2, [], []⟩ "area" [.int 1])
        [(gaugeInfo, .static), (metaInfo, .target)] (gaugeInfo, .static) 2 ∧
      ∀ rt t, Store.empty.buildRuntime gaugeHost.2 [gaugeHost.1] [] "" = (rt, t) →
        (t.decide gaugeHost.2 rt (.invokeMember "area" 1) [.text "", .int 1]).1 =
          .invokeMethod gaugeInfo 3 .target := by
  obtain ⟨orders, decides⟩ := members_in_order gaugeHost.2
  obtain ⟨instances, handles, -, -⟩ := orders [] [] "area" [.int 1]
  refine ⟨?_, ?_, fun rt t built => ?_⟩
  · have chosen : Surface.choose ⟨gaugeHost.2, [], []⟩ (.invokeMember "area" 1)
        [.object ⟨gaugeInfo, ⟨0⟩⟩, .int 1] = .invokeMethod gaugeInfo 3 .target := by decide +kernel
    exact ((instances ⟨gaugeInfo, ⟨0⟩⟩).call gaugeInfo 3 .target).1 chosen
  · have chosen : Surface.choose ⟨gaugeHost.2, [], []⟩ (.invokeMember "area" 1)
        [.type gaugeInfo, .int 1] = .invokeMethod gaugeInfo 2 .static := by decide +kernel
    exact ((handles gaugeInfo).call gaugeInfo 2 .static).1 chosen
  · have chosen : Surface.choose ⟨gaugeHost.2, boundTypes [gaugeHost.1], []⟩ (.invokeMember "area" 1)
        [.text "", .int 1] = .invokeMethod gaugeInfo 3 .target := by decide +kernel
    exact (decides .empty t rt _ _ _ [] _ .start built .start _ _).trans chosen

end HostScript
