import HostScript.Proofs.Machine.Transitions
import HostScript.Session

/-!
# Proofs/Machine/Above — machines that work above what waits

A step looks at no more than the top of the stack.  So a machine that begins above some waiting work does
what it would do with nothing below, up to its answer (`Machine.run_onto`), and only then hands this answer
to the work below.
-/

namespace HostScript

/-- A state above more work that waits. -/
def Config.onto (c : Config) (base : List Pending) : Config := { c with stack := c.stack ++ base }

theorem Config.onto_inj {c d : Config} {base : List Pending} (h : c.onto base = d.onto base) : c = d := by
  obtain ⟨control, stack, s⟩ := c
  obtain ⟨control', stack', s'⟩ := d
  obtain ⟨control, same, store⟩ := Config.mk.inj h
  exact (Config.mk.injEq ..).mpr ⟨control, List.append_cancel_right same, store⟩

namespace Machine

variable {setting : Setting} {base : List Pending}

theorem importPath_onto (env : Env) (path : List String) (stack : List Pending) (s : Store) :
    importPath setting env path (stack ++ base) s = (importPath setting env path stack s).onto base := by
  unfold importPath
  split
  next => rfl
  next =>
    dsimp only
    split
    next => split <;> rfl
    next => rfl
  next => rfl

theorem eval_onto (env : Env) (code : Code) (stack : List Pending) (s : Store) :
    eval setting env code (stack ++ base) s = (eval setting env code stack s).onto base := by
  cases code with
  | importAs position path name => exact importPath_onto env path (_ :: _ :: stack) s
  | dispatch _ _ operands => cases operands <;> rfl
  | choose branches _ => cases branches <;> rfl
  | sequence codes => cases codes <;> rfl
  | _ => rfl

theorem resume_onto (v : Value) (p : Pending) (stack : List Pending) (s : Store) :
    resume v p (stack ++ base) s = (resume v p stack s).onto base := by
  cases p with
  | operands _ _ _ _ todo => cases todo <;> rfl
  | sequence _ codes => cases codes <;> rfl
  | test =>
    rw [resume_test, resume_test]
    rfl
  | _ => rfl

theorem unwind_onto (e : Exit) (p : Pending) (stack : List Pending) (s : Store) :
    unwind e p (stack ++ base) s = (unwind e p stack s).onto base := by
  unfold unwind
  split
  case h_1 => split <;> rfl
  case h_3 => split <;> rfl
  all_goals rfl

theorem enter_onto (function : FunctionInfo) (args : List Value) (stack : List Pending) (s : Store) :
    enter setting function args (stack ++ base) s =
      (enter setting function args stack s).onto base := by
  unfold enter
  split
  next => split <;> rfl
  next => split <;> rfl
  next => rfl

/-- **A step looks only at the top of the stack**, as long as the machine has no answer. -/
theorem step_onto {c : Config} (none : answer? c = none) :
    step setting (c.onto base) = (step setting c).onto base := by
  obtain ⟨control, stack, s⟩ := c
  cases control with
  | eval env code => exact eval_onto env code stack s
  | dispatch env signature args =>
    show step setting ⟨.dispatch env signature args, stack ++ base, s⟩ = _
    unfold step
    dsimp only
    split <;> rfl
  | enter function args => exact enter_onto function args stack s
  | value v =>
    cases stack with
    | nil => cases none
    | cons p rest => exact resume_onto v p rest s
  | exit e =>
    cases stack with
    | nil => cases none
    | cons p rest => exact unwind_onto e p rest s

theorem answer?_onto {c : Config} (none : answer? c = none) : answer? (c.onto base) = Option.none := by
  obtain ⟨control, stack, s⟩ := c
  cases stack with
  | nil =>
    cases control with
    | value v => cases none
    | exit e => cases none
    | _ => cases base <;> rfl
  | cons p rest => cases control <;> rfl

/-- **A run above waiting work** comes to the answer that the machine gives with nothing below, by the same
steps, and goes on from there. -/
theorem run_onto {fuel : Nat} {c : Config} {result : Except EvalError Value × Store}
    (ran : run setting fuel (c.onto base) = some result) :
    ∃ n rest, (answer? ((step setting)^[n] c)).isSome ∧
      (∀ k ≤ n, (step setting)^[k] (c.onto base) = ((step setting)^[k] c).onto base) ∧
      run setting rest (((step setting)^[n] c).onto base) = some result := by
  induction fuel generalizing c with
  | zero => cases ran
  | succ fuel ih =>
    cases found : answer? c with
    | some answer =>
      refine ⟨0, fuel + 1, Option.isSome_of_eq_some found, fun k le => ?_, ran⟩
      obtain rfl := Nat.le_zero.1 le
      rfl
    | none =>
      rw [run, answer?_onto found, step_onto found] at ran
      obtain ⟨n, rest, answered, same, last⟩ := ih ran
      refine ⟨n + 1, rest, answered, fun k le => ?_, last⟩
      cases k with
      | zero => rfl
      | succ k =>
        rw [Function.iterate_succ_apply, Function.iterate_succ_apply, step_onto found]
        exact same k (Nat.le_of_succ_le_succ le)

/-- As long as a machine has no answer, it works above what waits as it does with nothing below. -/
theorem iterate_onto {c : Config} {n : Nat} (busy : ∀ k < n, answer? ((step setting)^[k] c) = none) :
    (step setting)^[n] (c.onto base) = ((step setting)^[n] c).onto base := by
  induction n with
  | zero => rfl
  | succ n ih =>
    rw [Function.iterate_succ_apply', Function.iterate_succ_apply',
      ih fun k lt => busy k (Nat.lt_succ_of_lt lt)]
    exact step_onto (busy n (Nat.lt_succ_self n))

/-- **What a run ends with** is the first answer that steps lead to. -/
theorem run_iff {c : Config} {answer : Except EvalError Value} {s : Store} :
    (∃ fuel, run setting fuel c = some (answer, s)) ↔
      ∃ n, (∀ k < n, answer? ((step setting)^[k] c) = none) ∧
        answer? ((step setting)^[n] c) = some answer ∧ ((step setting)^[n] c).store = s := by
  constructor
  · rintro ⟨fuel, ran⟩
    induction fuel generalizing c with
    | zero => cases ran
    | succ fuel ih =>
      rw [run] at ran
      cases found : answer? c with
      | some reply =>
        rw [found] at ran
        obtain ⟨rfl, rfl⟩ := Prod.mk.inj (Option.some.inj ran)
        exact ⟨0, fun _ never => absurd never (Nat.not_lt_zero _), found, rfl⟩
      | none =>
        rw [found] at ran
        obtain ⟨n, busy, answered⟩ := ih ran
        refine ⟨n + 1, fun k lt => ?_, answered⟩
        cases k with
        | zero => exact found
        | succ k => exact busy k (Nat.lt_of_succ_lt_succ lt)
  · rintro ⟨n, busy, answered, rfl⟩
    induction n generalizing c with
    | zero =>
      refine ⟨1, ?_⟩
      rw [run, show answer? c = some answer from answered]
      rfl
    | succ n ih =>
      obtain ⟨fuel, ran⟩ := ih (fun k lt => busy (k + 1) (Nat.succ_lt_succ lt)) answered
      refine ⟨fuel + 1, ?_⟩
      rw [run, show answer? c = none from busy 0 (Nat.succ_pos n)]
      exact ran

end Machine

end HostScript
