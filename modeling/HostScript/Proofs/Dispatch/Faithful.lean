import HostScript.Proofs.Dispatch.HeapOnly
import HostScript.Proofs.Dispatch.Range
import HostScript.Proofs.Dispatch.Shapes
import HostScript.Proofs.Machine.Starting
import HostScript.Session

/-!
# Proofs/Dispatch/Faithful — rules remember what would be chosen

A rule is *faithful* to what a host offers if each of its branches holds the action that is chosen
for any arguments of the branch's shapes.  The rules of all runtimes are faithful throughout a
session: a branch is added with the action just chosen for the arguments at hand, which by
`Surface.choose_congr` is the one chosen for all others of their shapes; requests add no branches; and
what a runtime offers is settled before it has any rules.
-/

namespace HostScript

/-- A branch holds what is chosen for all arguments of its shapes. -/
def Branch.Faithful (offer : Surface) (signature : Signature) (branch : Branch) : Prop :=
  ∀ args : List Value, args.map Value.shape = branch.guard →
    branch.action = offer.choose signature args

/-- All branches of all rules are faithful. -/
def Rules.Faithful (offer : Surface) (rules : Rules) : Prop :=
  ∀ signature, ∀ branch ∈ rules.branches signature, branch.Faithful offer signature

/-- The rules of all runtimes are faithful to what the host offers there. -/
def Store.Faithful (registry : Registry) (s : Store) : Prop :=
  ∀ rt, (s.runtime rt).rules.Faithful ((s.runtime rt).surface registry)

/-! ## Rules -/

namespace Rules

variable {offer : Surface} {rules : Rules}

theorem branches_request (rules : Rules) (s t : Signature) :
    (rules.request s).branches t = rules.branches t := by
  unfold request
  split
  · rfl
  · unfold branches
    rw [List.find?_append]
    cases rules.entries.find? (·.1 = t) with
    | some entry => rfl
    | none =>
      rw [Option.none_or, List.find?_singleton]
      split <;> rfl

theorem branches_requests (rules : Rules) (ss : List Signature) (t : Signature) :
    (ss.foldl request rules).branches t = rules.branches t := by
  induction ss generalizing rules with
  | nil => rfl
  | cons s ss ih => rw [List.foldl_cons, ih, branches_request]

theorem mem_branches_add {s t : Signature} {added branch : Branch}
    (h : branch ∈ (rules.add s added).branches t) :
    branch ∈ rules.branches t ∨ t = s ∧ branch = added := by
  unfold branches add at h
  rw [List.find?_map] at h
  have named : (fun e : Signature × List Branch => decide (e.1 = t)) ∘
      (fun e => if e.1 = s then (e.1, e.2 ++ [added]) else e) = fun e => decide (e.1 = t) := by
    funext e
    dsimp only [Function.comp]
    split <;> rfl
  rw [named] at h
  unfold branches
  cases found : rules.entries.find? (·.1 = t) with
  | none =>
    rw [found] at h
    exact absurd h List.not_mem_nil
  | some entry =>
    rw [found] at h
    have hit := List.find?_some found
    have at_entry : entry.1 = t := of_decide_eq_true hit
    by_cases here : entry.1 = s
    · simp only [Option.map_some, if_pos here, Option.getD_some, List.mem_append,
        List.mem_singleton] at h
      exact h.imp id fun last => ⟨at_entry.symm.trans here, last⟩
    · simp only [Option.map_some, if_neg here, Option.getD_some] at h
      exact .inl h

theorem faithful_empty : Rules.empty.Faithful offer := fun _ _ h => absurd h List.not_mem_nil

theorem Faithful.requests (h : rules.Faithful offer) (ss : List Signature) :
    (ss.foldl request rules).Faithful offer := fun t branch mem =>
  h t branch (branches_requests rules ss t ▸ mem)

/-- A faithful branch may be added. -/
theorem Faithful.add (h : rules.Faithful offer) {s : Signature} {added : Branch}
    (faithful : added.Faithful offer s) : (rules.add s added).Faithful offer := by
  intro t branch mem
  rcases mem_branches_add mem with before | ⟨rfl, rfl⟩
  · exact h t branch before
  · exact faithful

/-- What a faithful rule finds for arguments is what is chosen for them. -/
theorem Faithful.find? (h : rules.Faithful offer) {s : Signature} {args : List Value}
    {action : Action} (found : rules.find? s (args.map Value.shape) = some action) :
    action = offer.choose s args := by
  obtain ⟨branch, hit, rfl⟩ := Option.map_eq_some_iff.1 found
  have guards := List.find?_some hit
  exact h s branch (List.mem_of_find?_eq_some hit) args (of_decide_eq_true guards).symm

/-- The members that a faithful branch names are there: its shapes have samples, and the branch holds
what is chosen for these. -/
theorem Faithful.inRange (h : rules.Faithful offer) {s : Signature} {branch : Branch}
    (mem : branch ∈ rules.branches s) : branch.action.InRange offer.registry := by
  have shapes : (branch.guard.map Shape.sample).map Value.shape = branch.guard := by
    rw [List.map_map]
    exact (List.map_congr_left fun shape _ => Shape.shape_sample shape).trans (List.map_id _)
  rw [h s branch mem _ shapes]
  exact offer.inRange_choose s _

end Rules

/-- A choice for arguments is faithful under their shapes. -/
theorem Surface.faithful_choose (offer : Surface) (signature : Signature) (args : List Value) :
    Branch.Faithful offer signature ⟨args.map Value.shape, offer.choose signature args⟩ :=
  fun _ same => offer.choose_congr signature same.symm

/-! ## Stores -/

namespace Store

variable {registry : Registry} {s t : Store}

theorem runtime_of_runtimes (same : t.runtimes = s.runtimes) (rt : RuntimeId) :
    t.runtime rt = s.runtime rt := by
  unfold runtime
  rw [same]

theorem Faithful.of_runtimes (h : s.Faithful registry) (same : t.runtimes = s.runtimes) :
    t.Faithful registry := fun rt => runtime_of_runtimes same rt ▸ h rt

theorem faithful_empty : Store.empty.Faithful registry := fun _ => Rules.faithful_empty

/-- Changing a runtime changes that runtime at most. -/
theorem runtime_changeRuntime (s : Store) (id rt : RuntimeId) (f : Runtime → Runtime) :
    (s.changeRuntime id f).runtime rt = s.runtime rt ∨
      rt = id ∧ (s.changeRuntime id f).runtime rt = f (s.runtime id) := by
  unfold runtime changeRuntime
  rw [Array.getElem?_modify]
  by_cases here : id.index = rt.index
  · obtain rfl : id = rt := by cases id; cases rt; exact congrArg RuntimeId.mk here
    rw [if_pos rfl]
    cases s.runtimes[id.index]? with
    | none => exact .inl rfl
    | some runtime => exact .inr ⟨rfl, rfl⟩
  · rw [if_neg here]
    exact .inl rfl

theorem Faithful.changeRuntime (h : s.Faithful registry) (id : RuntimeId) {f : Runtime → Runtime}
    (kept : (f (s.runtime id)).rules.Faithful ((f (s.runtime id)).surface registry)) :
    (s.changeRuntime id f).Faithful registry := by
  intro rt
  rcases s.runtime_changeRuntime id rt f with same | ⟨-, changed⟩
  · rw [same]
    exact h rt
  · rw [changed]
    exact kept

/-! ## Operations -/

/-- **Deciding keeps rules faithful**, and what it decides is what is chosen afresh. -/
theorem Faithful.decide (h : s.Faithful registry) (rt : RuntimeId) (signature : Signature)
    (args : List Value) :
    (s.decide registry rt signature args).1 =
        ((s.runtime rt).surface registry).choose signature args ∧
      (s.decide registry rt signature args).2.Faithful registry := by
  unfold Store.decide
  dsimp only
  split
  next action found => exact ⟨(h rt).find? found, h⟩
  next =>
    refine ⟨rfl, h.changeRuntime rt (Rules.Faithful.add ?_ (Surface.faithful_choose _ signature args))⟩
    exact (h rt).requests [signature]

theorem Faithful.dispatch (h : s.Faithful registry) (rt : RuntimeId) (module : NamespaceId)
    (signature : Signature) (args : List Value) :
    (s.dispatch registry rt module signature args).2.Faithful registry :=
  (h.decide rt signature args).2.of_runtimes (runtimes_dispatch registry module signature args s rt)

theorem Faithful.prepare (h : s.Faithful registry) {rt : RuntimeId} {source : String}
    {result : Except ScriptError Program} (prepared : s.prepare rt source = (result, t)) :
    t.Faithful registry := by
  obtain rfl | ⟨requests, rfl⟩ := store_of_prepare prepared
  · exact h
  · exact h.changeRuntime rt ((h rt).requests requests)

theorem Faithful.startFile (h : s.Faithful registry) {files : Files} {rt : RuntimeId}
    {module : NamespaceId} {path : String} {result : Except ScriptError Control}
    (started : s.startFile files rt module path = (result, t)) : t.Faithful registry := by
  have told (full : String) : (s.bind module "__file__" (.text full)).Faithful registry :=
    h.of_runtimes rfl
  cases fileStarts_of_eq started with
  | unreadable => exact h
  | refused _ prepared => exact (told _).prepare prepared
  | starts _ prepared => exact ((told _).prepare prepared).of_runtimes rfl

theorem runtimes_undoLoad (s : Store) (load : Load) : (s.undoLoad load).runtimes = s.runtimes := by
  unfold undoLoad
  split <;> rfl

theorem runtimes_writeSlot (s : Store) (id : FrameId) (slot : SlotRef) (v : Value) :
    (s.writeSlot id slot v).runtimes = s.runtimes := by
  unfold writeSlot
  split <;> rfl

end Store

end HostScript
