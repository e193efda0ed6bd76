import HostScript.Proofs.Dispatch.Faithful
import Mathlib.Data.Finset.Filter
import Mathlib.Data.Finset.Dedup
import Mathlib.Data.Finset.Card
import Mathlib.Data.List.Flatten
import Mathlib.Data.List.Nodup
import Mathlib.Order.Basic

/-!
# Proofs/Dispatch/Growth — how rules grow

The rules of a runtime grow in two ways only: a signature is requested, or a rule is run, which adds a
branch the first time that arguments of these shapes are met.  So there is one rule for each signature,
its branches are for different shapes (`Orderly`), and nothing is ever taken away (`Grows`).
-/

namespace HostScript

namespace Rules

variable {rules a b c : Rules} {s t : Signature} {branch : Branch}

/-- The signatures that have been requested. -/
def signatures (rules : Rules) : List Signature := rules.entries.map Prod.fst

/-- The shapes that rules have branches for, with their signatures. -/
def met (rules : Rules) : List (Signature × List Shape) :=
  rules.entries.flatMap fun e => e.2.map fun branch => (e.1, branch.guard)

/-- Runs the rule of a signature: a branch is added unless there is one for its shapes. -/
def settle (rules : Rules) (s : Signature) (branch : Branch) : Rules :=
  if (rules.find? s branch.guard).isSome then rules else (rules.request s).add s branch

theorem key_of_find? {entries : List (Signature × List Branch)} {e : Signature × List Branch}
    (found : entries.find? (·.1 = s) = some e) : e.1 = s := by
  have named := List.find?_some found
  exact of_decide_eq_true named

/-! ## Requests -/

theorem mem_signatures_request :
    t ∈ (rules.request s).signatures ↔ t ∈ rules.signatures ∨ t = s := by
  unfold request
  split
  next there =>
    refine (or_iff_left_of_imp ?_).symm
    rintro rfl
    obtain ⟨e, mem, same⟩ := List.any_eq_true.1 there
    exact List.mem_map.2 ⟨e, mem, of_decide_eq_true same⟩
  next =>
    show t ∈ (rules.entries ++ [(s, [])]).map Prod.fst ↔ _
    rw [List.map_append, List.mem_append, List.map_singleton, List.mem_singleton]
    rfl

theorem mem_signatures_requests (ss : List Signature) :
    t ∈ (ss.foldl request rules).signatures ↔ t ∈ rules.signatures ∨ t ∈ ss := by
  induction ss generalizing rules with
  | nil => exact (or_iff_left List.not_mem_nil).symm
  | cons s rest ih => rw [List.foldl_cons, ih, mem_signatures_request, List.mem_cons, or_assoc]

/-- A signature that has been requested is not added again. -/
theorem request_of_mem (h : s ∈ rules.signatures) : rules.request s = rules := by
  obtain ⟨e, mem, same⟩ := List.mem_map.1 h
  exact if_pos (List.any_eq_true.2 ⟨e, mem, decide_eq_true same⟩)

theorem requests_of_mem {ss : List Signature} (h : ∀ s ∈ ss, s ∈ rules.signatures) :
    ss.foldl request rules = rules := by
  induction ss with
  | nil => rfl
  | cons s rest ih =>
    rw [List.foldl_cons, request_of_mem (h s List.mem_cons_self)]
    exact ih fun t mem => h t (List.mem_cons_of_mem s mem)

theorem met_request : (rules.request s).met = rules.met := by
  unfold request
  split
  · rfl
  · show (rules.entries ++ [(s, [])]).flatMap _ = _
    rw [List.flatMap_append]
    exact List.append_nil _

theorem met_requests (ss : List Signature) : (ss.foldl request rules).met = rules.met := by
  induction ss generalizing rules with
  | nil => rfl
  | cons s rest ih => exact ih.trans met_request

/-! ## Branches -/

theorem signatures_add : (rules.add s branch).signatures = rules.signatures := by
  show (rules.entries.map _).map Prod.fst = rules.entries.map Prod.fst
  rw [List.map_map]
  refine List.map_congr_left fun e _ => ?_
  dsimp only [Function.comp]
  split <;> rfl

theorem mem_met {shapes : List Shape} :
    (t, shapes) ∈ rules.met ↔ ∃ e ∈ rules.entries, e.1 = t ∧ shapes ∈ e.2.map Branch.guard := by
  unfold met
  rw [List.mem_flatMap]
  refine exists_congr fun e => and_congr_right fun _ => ?_
  rw [List.mem_map, List.mem_map]
  constructor
  · rintro ⟨branch, mem, same⟩
    obtain ⟨rfl, rfl⟩ := Prod.mk.inj same
    exact ⟨rfl, branch, mem, rfl⟩
  · rintro ⟨rfl, branch, mem, rfl⟩
    exact ⟨branch, mem, rfl⟩

theorem mem_met_add (requested : s ∈ rules.signatures) {x : Signature × List Shape} :
    x ∈ (rules.add s branch).met ↔ x ∈ rules.met ∨ x = (s, branch.guard) := by
  obtain ⟨t, shapes⟩ := x
  rw [mem_met, mem_met]
  constructor
  · rintro ⟨_, added, rfl, held⟩
    obtain ⟨e, mem, rfl⟩ := List.mem_map.1 added
    split at held
    next here =>
      rw [if_pos here]
      rw [List.map_append, List.mem_append, List.map_singleton, List.mem_singleton] at held
      exact held.imp (fun held => ⟨e, mem, rfl, held⟩) fun last => Prod.ext here last
    next other =>
      rw [if_neg other]
      exact .inl ⟨e, mem, rfl, held⟩
  · rintro (⟨e, mem, rfl, held⟩ | same)
    · refine ⟨_, List.mem_map_of_mem mem, ?_⟩
      split
      · exact ⟨rfl, by rw [List.map_append]; exact List.mem_append_left _ held⟩
      · exact ⟨rfl, held⟩
    · obtain ⟨rfl, rfl⟩ := Prod.mk.inj same
      obtain ⟨e, mem, rfl⟩ := List.mem_map.1 requested
      refine ⟨_, List.mem_map_of_mem mem, ?_⟩
      rw [if_pos rfl]
      refine ⟨rfl, ?_⟩
      rw [List.map_append]
      exact List.mem_append_right _ (List.mem_singleton_self _)

/-! ## Order -/

/-- **Rules in order**: one for each signature, with one branch for shapes. -/
structure Orderly (rules : Rules) : Prop where
  signatures : rules.signatures.Nodup
  guards : ∀ e ∈ rules.entries, (e.2.map Branch.guard).Nodup

namespace Orderly

theorem empty : Rules.empty.Orderly := ⟨List.nodup_nil, List.forall_mem_nil _⟩

theorem request (h : rules.Orderly) (s : Signature) : (rules.request s).Orderly := by
  by_cases there : s ∈ rules.signatures
  · rwa [request_of_mem there]
  · have missing : ¬rules.entries.any (·.1 = s) := fun any => there <| by
      obtain ⟨e, mem, same⟩ := List.any_eq_true.1 any
      exact List.mem_map.2 ⟨e, mem, of_decide_eq_true same⟩
    unfold Rules.request
    rw [if_neg missing]
    refine ⟨?_, fun e mem => ?_⟩
    · show ((rules.entries ++ [(s, [])]).map Prod.fst).Nodup
      rw [List.map_append]
      exact h.signatures.append (List.nodup_singleton s)
        (List.disjoint_singleton.2 there)
    · rcases List.mem_append.1 mem with before | last
      · exact h.guards e before
      · rw [List.mem_singleton.1 last]
        exact List.nodup_nil

theorem requests (h : rules.Orderly) (ss : List Signature) :
    (ss.foldl Rules.request rules).Orderly := by
  induction ss generalizing rules with
  | nil => exact h
  | cons s rest ih => exact ih (h.request s)

/-- In order, a rule is found by its signature. -/
theorem branches (h : rules.Orderly) {e : Signature × List Branch} (mem : e ∈ rules.entries) :
    rules.branches e.1 = e.2 := by
  unfold Rules.branches
  cases found : rules.entries.find? (·.1 = e.1) with
  | none =>
    have never := List.find?_eq_none.1 found e mem
    exact absurd (decide_eq_true rfl) never
  | some other =>
    rw [List.inj_on_of_nodup_map h.signatures (List.mem_of_find?_eq_some found) mem (key_of_find? found)]
    rfl

/-- In order, a branch that is not found is one for shapes that the rule has not met. -/
theorem add (h : rules.Orderly) (new : rules.find? s branch.guard = none) :
    (rules.add s branch).Orderly := by
  refine ⟨?_, fun e added => ?_⟩
  · rw [signatures_add]
    exact h.signatures
  obtain ⟨old, mem, rfl⟩ := List.mem_map.1 added
  have before := h.guards old mem
  split
  next here =>
    rw [List.map_append]
    refine before.append (List.nodup_singleton _) (List.disjoint_singleton.2 fun met => ?_)
    obtain ⟨other, held, same⟩ := List.mem_map.1 met
    subst here
    unfold Rules.find? at new
    rw [h.branches mem, Option.map_eq_none_iff, List.find?_eq_none] at new
    exact new other held (decide_eq_true same)
  next => exact before

theorem settle (h : rules.Orderly) (s : Signature) (branch : Branch) :
    (rules.settle s branch).Orderly := by
  unfold Rules.settle
  split
  · exact h
  next missing =>
    refine (h.request s).add ?_
    unfold Rules.find? at missing ⊢
    rw [branches_request]
    exact Option.not_isSome_iff_eq_none.1 missing

theorem nodup_pairs (h : rules.Orderly) {e : Signature × List Branch} (mem : e ∈ rules.entries) :
    (e.2.map fun branch => (e.1, branch.guard)).Nodup := by
  have paired : (e.2.map fun branch => (e.1, branch.guard)) = (e.2.map Branch.guard).map (e.1, ·) :=
    (List.map_map ..).symm
  rw [paired]
  exact (h.guards e mem).map fun _ _ same => (Prod.mk.inj same).2

/-- In order, no shapes are listed twice. -/
theorem nodup_met (h : rules.Orderly) : rules.met.Nodup := by
  refine List.nodup_flatMap.2 ⟨fun e mem => h.nodup_pairs mem, ?_⟩
  refine (List.pairwise_map.1 h.signatures).imp fun {e other} ne => ?_
  refine List.disjoint_left.2 fun x left right => ne ?_
  obtain ⟨_, -, rfl⟩ := List.mem_map.1 left
  obtain ⟨_, -, same⟩ := List.mem_map.1 right
  exact (Prod.mk.inj same).1.symm

/-- In order, a rule has one branch for each of the shapes that it has met. -/
theorem length_branches (h : rules.Orderly) {e : Signature × List Branch} (mem : e ∈ rules.entries) :
    e.2.length = (rules.met.filter (·.1 = e.1)).length := by
  rw [← List.length_map fun branch : Branch => (e.1, branch.guard)]
  refine ((List.perm_ext_iff_of_nodup (h.nodup_pairs mem) (h.nodup_met.filter _)).2 fun x => ?_).length_eq
  obtain ⟨t, shapes⟩ := x
  rw [List.mem_filter, decide_eq_true_iff, mem_met, List.mem_map]
  constructor
  · rintro ⟨branch, held, same⟩
    obtain ⟨rfl, rfl⟩ := Prod.mk.inj same
    exact ⟨⟨e, mem, rfl, List.mem_map_of_mem held⟩, rfl⟩
  · rintro ⟨⟨other, there, rfl, held⟩, same⟩
    obtain rfl := List.inj_on_of_nodup_map h.signatures there mem same
    obtain ⟨branch, inside, rfl⟩ := List.mem_map.1 held
    exact ⟨branch, inside, rfl⟩

end Orderly

theorem mem_signatures_settle :
    t ∈ (rules.settle s branch).signatures ↔ t ∈ rules.signatures ∨ t = s := by
  unfold settle
  split
  next there =>
    refine (or_iff_left_of_imp ?_).symm
    rintro rfl
    unfold find? branches at there
    cases found : rules.entries.find? (·.1 = t) with
    | none =>
      rw [found] at there
      cases there
    | some e =>
      exact List.mem_map.2 ⟨e, List.mem_of_find?_eq_some found, key_of_find? found⟩
  next => rw [signatures_add, mem_signatures_request]

/-- Running a rule meets the shapes of the branch. -/
theorem mem_met_settle {x : Signature × List Shape} :
    x ∈ (rules.settle s branch).met ↔ x ∈ rules.met ∨ x = (s, branch.guard) := by
  unfold settle
  split
  next there =>
    refine (or_iff_left_of_imp ?_).symm
    rintro rfl
    unfold find? branches at there
    cases found : rules.entries.find? (·.1 = s) with
    | none =>
      rw [found] at there
      cases there
    | some e =>
      rw [found, Option.isSome_map] at there
      obtain ⟨held, mem, same⟩ := List.find?_isSome.1 there
      exact mem_met.2 ⟨e, List.mem_of_find?_eq_some found, key_of_find? found,
        List.mem_map.2 ⟨held, mem, of_decide_eq_true same⟩⟩
  next => rw [mem_met_add (mem_signatures_request.2 (.inr rfl)), met_request]

/-! ## Growth -/

/-- **Rules that have grown**: signatures and shapes that have been there are there. -/
structure Grows (a b : Rules) : Prop where
  signatures : a.signatures.Sublist b.signatures
  met : a.met.Sublist b.met

namespace Grows

theorem refl (rules : Rules) : rules.Grows rules := ⟨.refl _, .refl _⟩

theorem trans (h : a.Grows b) (k : b.Grows c) : a.Grows c :=
  ⟨h.signatures.trans k.signatures, h.met.trans k.met⟩

theorem request (rules : Rules) (s : Signature) : rules.Grows (rules.request s) := by
  refine ⟨?_, met_request ▸ .refl _⟩
  unfold Rules.request
  split
  · exact .refl _
  · exact (List.sublist_append_left rules.entries _).map Prod.fst

theorem requests (rules : Rules) (ss : List Signature) : rules.Grows (ss.foldl Rules.request rules) := by
  induction ss generalizing rules with
  | nil => exact refl rules
  | cons s rest ih => exact (request rules s).trans (ih _)

theorem add (rules : Rules) (s : Signature) (branch : Branch) : rules.Grows (rules.add s branch) := by
  refine ⟨signatures_add ▸ .refl _, ?_⟩
  show List.Sublist _ ((rules.entries.map _).flatMap _)
  rw [List.flatMap_map]
  refine List.Sublist.flatMap_right _ fun e _ => ?_
  split
  · exact (List.sublist_append_left e.2 _).map _
  · exact .refl _

theorem settle (rules : Rules) (s : Signature) (branch : Branch) :
    rules.Grows (rules.settle s branch) := by
  unfold Rules.settle
  split
  · exact refl rules
  · exact (request rules s).trans (add _ s branch)

end Grows

/-! ## Counting -/

/-- What is counted is the signatures and the shapes that have been met. -/
theorem count_eq (rules : Rules) (op : Operation) :
    rules.count op =
      ((rules.signatures.filter (·.operation = op)).length,
        (rules.met.filter (·.1.operation = op)).length) := by
  obtain ⟨entries⟩ := rules
  unfold count signatures met
  dsimp only
  rw [List.filter_map, List.length_map]
  refine Prod.ext rfl ?_
  dsimp only
  induction entries with
  | nil => rfl
  | cons e rest ih =>
    rw [List.flatMap_cons, List.filter_append, List.length_append, ← ih, List.filter_map,
      List.length_map]
    by_cases here : e.1.operation = op
    · rw [List.filter_cons, if_pos (decide_eq_true here)]
      have all : e.2.filter ((fun x : Signature × List Shape => decide (x.1.operation = op)) ∘
          fun branch => (e.1, branch.guard)) = e.2 := List.filter_eq_self.2 fun _ _ => decide_eq_true here
      rw [all]
      rfl
    · rw [List.filter_cons, if_neg fun same => here (of_decide_eq_true same)]
      have none : e.2.filter ((fun x : Signature × List Shape => decide (x.1.operation = op)) ∘
          fun branch => (e.1, branch.guard)) = [] :=
        List.filter_eq_nil_iff.2 fun _ _ same => here (of_decide_eq_true same)
      rw [none]
      exact (Nat.zero_add _).symm

/-- **Counts never decrease** while rules grow. -/
theorem Grows.count (h : a.Grows b) (op : Operation) : a.count op ≤ b.count op := by
  rw [count_eq, count_eq]
  exact ⟨(h.signatures.filter _).length_le, (h.met.filter _).length_le⟩

/-- How many members of a list without repetitions satisfy a condition. -/
theorem length_filter_eq_card {α : Type} [DecidableEq α] {xs ys : List α} (nodup : xs.Nodup)
    (same : ∀ x, x ∈ xs ↔ x ∈ ys) (p : α → Prop) [DecidablePred p] :
    (xs.filter p).length = (ys.toFinset.filter p).card := by
  rw [← List.toFinset_card_of_nodup (nodup.filter _), List.toFinset_filter]
  congr 1
  ext x
  rw [Finset.mem_filter, Finset.mem_filter, List.mem_toFinset, List.mem_toFinset, same, decide_eq_true_iff]

end Rules

end HostScript
