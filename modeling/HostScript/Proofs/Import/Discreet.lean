import HostScript.Proofs.Estate.Actions
import HostScript.Proofs.Import.Hidden

/-!
# Proofs/Import/Discreet — what works for scripts hides and spares the globals

Dynamic operations keep the root of the global names hidden and its names as they are, if the members
of the host do: their operands are not the root, and what is found in hidden places is not the root.
-/

namespace HostScript

variable {root : NamespaceId}

/-- An outcome with no root of the global names in it. -/
def Outcome.Avoids (root : NamespaceId) : Outcome → Prop
  | .reply r => r.Avoids root
  | .dispatch _ args => ∀ v ∈ args, v.Avoids root

theorem Outcome.avoids_iff {outcome : Outcome} :
    outcome.Avoids root ↔ outcome.Outside (Cell.IsRoot root) := by
  cases outcome with
  | reply r => exact Reply.avoids_iff
  | dispatch signature args => simp only [Avoids, Outside, Value.avoids_iff]

/-- Actions keep no namespaces. -/
theorem Action.outside_isRoot (action : Action) : action.Outside (Cell.IsRoot root) := by
  cases action with
  | callNamed fallback =>
    cases fallback with
    | none => trivial
    | some bound => exact nofun
  | _ => trivial

namespace Store

variable {s : Store} {registry : Registry}

/-- **A dynamic operation keeps the globals hidden and as they are.** -/
theorem Hides.dispatch (hides : s.Hides root) (discreet : registry.Discreet root) (rt : RuntimeId)
    (module : NamespaceId) (signature : Signature) {args : List Value}
    (avoid : ∀ v ∈ args, v.Avoids root) :
    (s.dispatch registry rt module signature args).1.Avoids root ∧
      (s.dispatch registry rt module signature args).2.Hides root ∧
        (s.dispatch registry rt module signature args).2.space root = s.space root := by
  have heap : (s.decide registry rt signature args).2.toHeap = s.toHeap := by
    rw [s.decide_eq registry signature args rt]
  have same : s.SameCode (s.dispatch registry rt module signature args).2 :=
    ⟨s.frames_dispatch registry module signature args rt,
      s.functions_dispatch registry module signature args rt⟩
  have fenced := Heap.hides_iff.1 (heap ▸ hides.heap)
  have outside : ∀ v ∈ args, v.Outside (Cell.IsRoot root) := fun v mem => Value.avoids_iff.1 (avoid v mem)
  obtain ⟨outcome, leaves⟩ : EndsOutside (Cell.IsRoot root) Cell.Nowhere
      (s.decide registry rt signature args).2 (s.dispatch registry rt module signature args) := by
    refine endsOutside_perform fenced (Registry.discreet_iff.1 discreet) (Action.outside_isRoot _)
      (fun v found => ?_) outside
    rcases Option.or_eq_some_iff.1 found with own | ⟨-, bound⟩
    · exact fenced.get? (fun never => never) own
    · exact fenced.get? (fun never => never) bound
  obtain ⟨hidden, spared⟩ := Heap.spares_iff.2 leaves
  exact ⟨Outcome.avoids_iff.2 outcome, hides.of_code hidden same,
    spared.trans (congrArg (Heap.space · root) heap)⟩

end Store

end HostScript
