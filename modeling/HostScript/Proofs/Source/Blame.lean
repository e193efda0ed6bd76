import HostScript.Proofs.Machine.Marks
import HostScript.Proofs.Source.Reports

/-!
# Proofs/Source/Blame — which operation a failure belongs to

Operations are done, and functions are entered, only right above the position of an operation
(`Config.Ready`), and a failure comes from nowhere else but an import (`Machine.fails_of_step`).  So the first
position that a failure meets on its way out is that of the innermost operation that is being worked on
(`Machine.failsAt_of_fails`), and it keeps this position.
-/

namespace HostScript

/-! ## Failures -/

/-- **Operations are done under their positions**: where an operation is done or a function is entered, the
position of an operation waits first. -/
def Config.Ready (c : Config) : Prop :=
  match c.control with
  | .dispatch _ _ _ | .enter _ _ => ∃ p rest, c.stack = .locate p :: rest
  | _ => True

namespace Machine

variable {setting : Setting} {c : Config} {env : Env} {stack : List Pending} {s : Store}

/-- **What is evaluated at one state is still being worked on at a later one**: since then there has always
been something that waits above what waited first. -/
def Busy (setting : Setting) (c : Config) (k n : Nat) : Prop :=
  ∀ j, k < j → j ≤ n →
    ∃ above, above ≠ [] ∧ ((step setting)^[j] c).stack = above ++ ((step setting)^[k] c).stack

theorem Marked.busy {k n : Nat} {p : Position} {code : Code} {base : List Pending}
    (evaluated : (step setting)^[k] c = ⟨.eval env code, base, s⟩)
    (since : ∀ j, k < j → j ≤ n → Marked p (code.under env base) ((step setting)^[j] c).stack) :
    Busy setting c k n := by
  intro j later le
  obtain ⟨mark, -, above, same⟩ := since j later le
  rw [evaluated, ← same]
  have under : ∃ between, code.under env base = between ++ base := by
    cases code with
    | importAs => exact ⟨[_], rfl⟩
    | _ => exact ⟨[], rfl⟩
  obtain ⟨between, under⟩ := under
  refine ⟨above ++ mark :: between, by simp, ?_⟩
  rw [under, List.append_assoc, List.cons_append]

end Machine

end HostScript
