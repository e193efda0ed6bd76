import HostScript.Proofs.Machine.Above
import HostScript.Proofs.Machine.Jumps
import HostScript.Proofs.Machine.Provenance
import Mathlib.Data.Nat.Find

/-!
# Proofs/Machine/Exits — where exits come from

A `return` becomes pending only where it is evaluated, and the exit for it is only made where one is pending.
So a machine can be followed back from an exit that no call has caught: to the pending `return` that it was
made by (`Machine.give_of_exit`), and from there to the code whose value that has waited for
(`Machine.given_of_pending`).  What the machine has done in between is what this code does on its own.
-/

namespace HostScript

namespace Machine

variable {setting : Setting} {c d : Config}

/-! ## Answers -/

theorem answer?_ok {v : Value} (h : answer? c = some (.ok v)) : c = ⟨.value v, [], c.store⟩ := by
  obtain ⟨control, stack, s⟩ := c
  unfold answer? at h
  split at h
  next same =>
    cases same
    cases h
    rfl
  next => cases h
  next => cases h

theorem answer?_isSome (h : (answer? c).isSome) :
    (∃ v, c = ⟨.value v, [], c.store⟩) ∨ ∃ e, c = ⟨.exit e, [], c.store⟩ := by
  obtain ⟨control, stack, s⟩ := c
  unfold answer? at h
  split at h
  next same =>
    cases same
    exact .inl ⟨_, rfl⟩
  next same =>
    cases same
    exact .inr ⟨_, rfl⟩
  next => cases h

/-- **What has been taken off the stack has been answered for.** -/
theorem answers_above {base : List Pending} {n : Nat}
    (below : ((step setting)^[n] (c.onto base)).stack.length < base.length) :
    ∃ m < n, (answer? ((step setting)^[m] c)).isSome ∧
      ∀ k < m, answer? ((step setting)^[k] c) = none := by
  have answered : ∃ m < n, (answer? ((step setting)^[m] c)).isSome := by
    by_contra never
    have busy (k : Nat) (lt : k < n) : answer? ((step setting)^[k] c) = none :=
      Option.not_isSome_iff_eq_none.1 fun found => never ⟨k, lt, found⟩
    rw [iterate_onto busy] at below
    exact absurd below (by simp [Config.onto])
  classical
  obtain ⟨lt, found⟩ := Nat.find_spec answered
  refine ⟨Nat.find answered, lt, found, fun k before => ?_⟩
  exact Option.not_isSome_iff_eq_none.1 fun early =>
    Nat.find_min answered before ⟨before.trans lt, early⟩

/-- Work that takes only itself off the stack is gone when it gets an answer. -/
theorem stack_answered {p : Pending} (below : List Pending) (answered : (answer? d).isSome)
    (resumes : ∀ v s, (resume v p below s).stack = below)
    (unwinds : ∀ e s, (unwind e p below s).stack = below) :
    (step setting (d.onto (p :: below))).stack = below := by
  rcases answer?_isSome answered with ⟨v, same⟩ | ⟨e, same⟩
  · rw [same]
    exact resumes v d.store
  · rw [same]
    exact unwinds e d.store

/-! ## Pending `return`s -/

/-- Work is pushed onto a part of a stack, and is no pending `return`. -/
def Pushes (stack after : List Pending) : Prop :=
  ∃ pushed n, after = pushed ++ stack.drop n ∧ ∀ label, Pending.give label ∉ pushed

section

variable {stack : List Pending}

theorem Pushes.none : Pushes stack stack := ⟨[], 0, rfl, fun _ => List.not_mem_nil⟩

theorem Pushes.pop {p : Pending} : Pushes (p :: stack) stack := ⟨[], 1, rfl, fun _ => List.not_mem_nil⟩

theorem Pushes.one {p : Pending} (plain : ∀ label, .give label ≠ p) :
    Pushes stack (p :: stack) := ⟨[p], 0, rfl, fun label mem => plain label (List.mem_singleton.1 mem)⟩

theorem Pushes.replace {p q : Pending} (plain : ∀ label, .give label ≠ q) :
    Pushes (p :: stack) (q :: stack) :=
  ⟨[q], 1, rfl, fun label mem => plain label (List.mem_singleton.1 mem)⟩

/-- A pending `return` that has not been pushed was there before. -/
theorem Pushes.pending {label : Label} {above below : List Pending}
    (h : Pushes stack (above ++ .give label :: below)) :
    ∃ before, stack = before ++ .give label :: below := by
  obtain ⟨pushed, n, same, plain⟩ := h
  have whole := List.take_append_drop n stack
  rcases List.append_eq_append_iff.1 same with ⟨rest, rfl, under⟩ | ⟨rest, rfl, under⟩
  · cases rest with
    | nil =>
      rw [← List.nil_append (stack.drop n), ← under] at whole
      exact ⟨stack.take n, whole.symm⟩
    | cons p rest =>
      obtain ⟨rfl, -⟩ := List.cons.inj under
      exact absurd (List.mem_append_right above List.mem_cons_self) (plain label)
  · rw [under, ← List.append_assoc] at whole
    exact ⟨stack.take n ++ rest, whole.symm⟩

variable {env : Env} {s : Store}

theorem pushes_importPath (position : Position) (path : List String) (name : String) :
    Pushes stack
      (importPath setting env path (.locate position :: .bind env.module name :: stack) s).stack := by
  have waiting : Pushes stack (.locate position :: .bind env.module name :: stack) :=
    ⟨[.locate position, .bind env.module name], 0, rfl, fun _ mem => by simp at mem⟩
  have loading (load : Load) :
      Pushes stack (.load load :: .locate position :: .bind env.module name :: stack) :=
    ⟨[.load load, .locate position, .bind env.module name], 0, rfl, fun _ mem => by simp at mem⟩
  match importPath setting env path _ s, importsTo setting env path _ s with
  | _, .bound _ | _, .missing _ _ => exact waiting
  | _, .starts _ | _, .refused _ => exact loading _

theorem pushes_eval {code : Code} (other : ∀ label value, code ≠ .give label value) :
    Pushes stack (eval setting env code stack s).stack := by
  cases code with
  | give label value => exact absurd rfl (other label value)
  | importAs position path name => exact pushes_importPath position path name
  | dispatch _ _ operands => cases operands <;> exact .one nofun
  | choose branches _ =>
    cases branches with
    | nil => exact .none
    | cons first rest => exact .one nofun
  | sequence codes =>
    cases codes with
    | nil => exact .none
    | cons first rest => exact .one nofun
  | write | loop | leave => exact .one nofun
  | null | constant | thisModule | read | closure => exact .none

theorem pushes_resume {v : Value} {p : Pending} : Pushes (p :: stack) (resume v p stack s).stack := by
  cases p with
  | operands _ _ _ _ todo => cases todo <;> exact .replace nofun
  | sequence _ codes =>
    cases codes with
    | nil => exact .pop
    | cons next rest => exact .replace nofun
  | test =>
    rw [resume_test]
    exact .pop
  | loop => exact .replace nofun
  | write | leave | give | bind | locate | call | load => exact .pop

theorem pushes_unwind {e : Exit} {p : Pending} : Pushes (p :: stack) (unwind e p stack s).stack := by
  match e, p, unwind e p stack s, unwindsTo e p stack s with
  | _, _, _, .left | _, _, _, .returned | _, _, _, .located | _, _, _, .failed _ | _, _, _, .undone
  | _, _, _, .passed _ => exact .pop

theorem pushes_enter {f : FunctionInfo} {args : List Value} :
    Pushes stack (enter setting f args stack s).stack := by
  match enter setting f args stack s, entersTo setting f args stack s with
  | _, .script .. => exact .one nofun
  | _, .native .. | _, .noNative .. | _, .dropped .. | _, .noFunction .. => exact .none

end

/-- **A `return` becomes pending only where it is evaluated.** -/
theorem pushes_step (setting : Setting) (c : Config)
    (other : ∀ env label value, c.control ≠ .eval env (.give label value)) :
    Pushes c.stack (step setting c).stack := by
  match c, step setting c, stepsTo setting c with
  | _, _, .evaluates =>
    exact pushes_eval fun label value same => other _ label value (congrArg (Control.eval _) same)
  | _, _, .replies _ | _, _, .handsOver _ | _, _, .rests _ => exact .none
  | _, _, .enters => exact pushes_enter
  | _, _, .resumes => exact pushes_resume
  | _, _, .unwinds => exact pushes_unwind

/-- A `return` that is pending after a step was pending before, or is evaluated in this step. -/
theorem give_of_step {label : Label} {above below : List Pending}
    (h : (step setting c).stack = above ++ .give label :: below) :
    (∃ before, c.stack = before ++ .give label :: below) ∨
      ∃ env value, c.control = .eval env (.give label value) ∧ c.stack = below := by
  by_cases gives : ∃ env other value, c.control = .eval env (.give other value)
  · obtain ⟨env, other, value, control⟩ := gives
    obtain ⟨_, stack, s⟩ := c
    obtain rfl := control
    have pushed : .give other :: stack = above ++ .give label :: below := h
    cases above with
    | nil =>
      obtain ⟨same, rfl⟩ := List.cons.inj pushed
      cases same
      exact .inr ⟨env, value, rfl, rfl⟩
    | cons p before => exact .inl ⟨before, (List.cons.inj pushed).2⟩
  · have pushes := pushes_step setting c fun env other value control => gives ⟨env, other, value, control⟩
    rw [h] at pushes
    exact .inl pushes.pending

/-- **What is pending was evaluated.**  In a machine that begins with nothing below, a pending `return` waits
for the value of the code that it was evaluated with, which has been worked on since then and nothing else. -/
theorem given_of_pending (bare : c.stack = []) {n : Nat} {label : Label} {above below : List Pending}
    (h : ((step setting)^[n] c).stack = above ++ .give label :: below) :
    ∃ k env value s m, k + 1 + m = n ∧
      (step setting)^[k] c = ⟨.eval env (.give label value), below, s⟩ ∧
      (∀ i < m, answer? ((step setting)^[i] ⟨.eval env value, [], s⟩) = none) ∧
      (step setting)^[n] c =
        ((step setting)^[m] ⟨.eval env value, [], s⟩).onto (.give label :: below) := by
  induction n generalizing above with
  | zero =>
    rw [Function.iterate_zero, id, bare] at h
    exact absurd h.symm (by simp)
  | succ n ih =>
    rw [Function.iterate_succ_apply'] at h ⊢
    rcases give_of_step h with ⟨before, pending⟩ | ⟨env, value, control, same⟩
    · obtain ⟨k, env, value, s, m, rfl, evaluated, busy, works⟩ := ih pending
      rw [works] at h ⊢
      cases found : answer? ((step setting)^[m] ⟨.eval env value, [], s⟩) with
      | none =>
        refine ⟨k, env, value, s, m + 1, rfl, evaluated, fun i lt => ?_, ?_⟩
        · rcases Nat.lt_succ_iff_lt_or_eq.1 lt with before | rfl
          · exact busy i before
          · exact found
        · rw [Function.iterate_succ_apply']
          exact step_onto found
      | some answer =>
        -- the pending `return` has got its answer, and the step takes it off the stack
        have gone : (step setting (((step setting)^[m] _).onto (.give label :: below))).stack = below :=
          stack_answered below (Option.isSome_of_eq_some found) (fun _ _ => rfl) fun e _ => by
            cases e <;> rfl
        rw [gone] at h
        exact absurd (congrArg List.length h) (by simp; omega)
    · refine ⟨n, env, value, ((step setting)^[n] c).store, 0, rfl, ?_, nofun, ?_⟩
      · rw [← control, ← same]
      · rw [show (step setting)^[n] c = ⟨.eval env (.give label value), below, _⟩ by
          rw [← control, ← same]]
        rfl

section

variable {env : Env} {stack : List Pending} {s : Store} {label : Label} {x : Value}

theorem ofReply_ne_give (reply : Reply) : Control.ofReply reply ≠ .exit (.give label x) := by
  cases reply <;> nofun

theorem importPath_ne_give (path : List String) :
    (importPath setting env path stack s).control ≠ .exit (.give label x) := by
  match importPath setting env path stack s, importsTo setting env path stack s with
  | _, .bound _ | _, .missing _ _ | _, .refused _ => nofun
  | _, .starts file =>
    obtain ⟨-, starts⟩ := Store.startFile_isProgram file.started
    obtain ⟨_, _, _, _, -, -, rfl⟩ := starts _ rfl
    nofun

/-- No `return` is made where code is evaluated. -/
theorem eval_ne_give (code : Code) :
    (eval setting env code stack s).control ≠ .exit (.give label x) := by
  cases code with
  | importAs => exact importPath_ne_give _
  | dispatch _ _ operands => cases operands <;> nofun
  | choose branches _ => cases branches <;> nofun
  | sequence codes => cases codes <;> nofun
  | _ => nofun

theorem enter_ne_give (f : FunctionInfo) (args : List Value) :
    (enter setting f args stack s).control ≠ .exit (.give label x) := by
  match enter setting f args stack s, entersTo setting f args stack s with
  | _, .native .. => exact ofReply_ne_give _
  | _, .noNative .. | _, .script .. | _, .dropped .. | _, .noFunction .. => nofun

/-- A value makes a `return` only where one is pending. -/
theorem resume_give {v : Value} {p : Pending}
    (h : (resume v p stack s).control = .exit (.give label x)) :
    p = .give label ∧ v = x ∧ (resume v p stack s).stack = stack ∧ (resume v p stack s).store = s := by
  cases p with
  | give own =>
    cases h
    exact ⟨rfl, rfl, rfl, rfl⟩
  | operands _ _ _ _ todo => cases todo <;> cases h
  | sequence _ codes => cases codes <;> cases h
  | test =>
    rw [resume_test] at h
    cases h
  | _ => cases h

/-- The exit of a `return` goes on only past what has not begun an activation. -/
theorem unwind_give {e : Exit} {p : Pending}
    (h : (unwind e p stack s).control = .exit (.give label x)) :
    e = .give label x ∧ ¬ p.Begins ∧ (unwind e p stack s).stack = stack ∧
      (unwind e p stack s).store = s := by
  revert h
  match e, p, unwind e p stack s, unwindsTo e p stack s with
  | _, _, _, .passed free => exact fun h => ⟨Control.exit.inj h, free, rfl, rfl⟩
  | _, _, _, .left | _, _, _, .returned | _, _, _, .located | _, _, _, .failed _ | _, _, _, .undone =>
    exact nofun

end

/-- **Where the exit of a `return` comes from**: it has just been made by a pending one, or it has passed
work at which no activation has been begun. -/
theorem give_of_exit {label : Label} {x : Value}
    (h : (step setting c).control = .exit (.give label x)) :
    (step setting c).store = c.store ∧
      (c = ⟨.value x, .give label :: (step setting c).stack, c.store⟩ ∨
        c.control = .exit (.give label x) ∧ ∀ p ∈ c.stack, p.Begins → p ∈ (step setting c).stack) := by
  revert h
  match c, step setting c, stepsTo setting c with
  | _, _, .evaluates => exact fun h => absurd h (eval_ne_give _)
  | _, _, .replies _ => exact fun h => absurd h (ofReply_ne_give _)
  | _, _, .handsOver _ => exact nofun
  | _, _, .enters => exact fun h => absurd h (enter_ne_give _ _)
  | _, _, .resumes =>
    intro h
    obtain ⟨rfl, rfl, below, same⟩ := resume_give h
    exact ⟨same, .inl (by rw [below])⟩
  | _, _, .unwinds =>
    intro h
    obtain ⟨rfl, free, below, same⟩ := unwind_give h
    refine ⟨same, .inr ⟨rfl, List.forall_mem_cons.2 ⟨fun begins => absurd begins free, ?_⟩⟩⟩
    intro q mem _
    rw [below]
    exact mem
  | _, _, .rests _ => exact fun h => ⟨rfl, .inr ⟨h, fun _ mem _ => mem⟩⟩

/-- **An exit that no call has caught leads back to its `return`**, which was evaluated with no activation
begun in between. -/
theorem gives_of_exit {env : Env} {body : Code} (begins : c.control = .eval env body) (bare : c.stack = [])
    {n : Nat} {label : Label} {x : Value}
    (h : ((step setting)^[n] c).control = .exit (.give label x))
    (own : ∀ p ∈ ((step setting)^[n] c).stack, ¬ p.Begins) :
    ∃ k env value above s, k < n ∧
      (step setting)^[k] c = ⟨.eval env (.give label value), above, s⟩ ∧ (∀ p ∈ above, ¬ p.Begins) ∧
      ∃ fuel, run setting fuel ⟨.eval env value, [], s⟩ = some (.ok x, ((step setting)^[n] c).store) := by
  induction n with
  | zero =>
    rw [Function.iterate_zero, id, begins] at h
    cases h
  | succ n ih =>
    rw [Function.iterate_succ_apply'] at h own ⊢
    obtain ⟨kept, made | ⟨control, passed⟩⟩ := give_of_exit h
    · have pending : ((step setting)^[n] c).stack =
          [] ++ .give label :: (step setting ((step setting)^[n] c)).stack := congrArg Config.stack made
      obtain ⟨k, env, value, s, m, total, evaluated, busy, works⟩ := given_of_pending bare pending
      have answered : (step setting)^[m] ⟨.eval env value, [], s⟩ = ⟨.value x, [], _⟩ :=
        Config.onto_inj (works.symm.trans made)
      rw [kept]
      refine ⟨k, env, value, _, s, Nat.lt_succ_of_lt (by omega), evaluated, own, run_iff.2 ⟨m, busy, ?_⟩⟩
      rw [answered]
      exact ⟨rfl, rfl⟩
    · obtain ⟨k, env, value, above, s, before, found⟩ :=
        ih control fun p mem begins => own p (passed p mem begins) begins
      rw [kept]
      exact ⟨k, env, value, above, s, Nat.lt_succ_of_lt before, found⟩

end Machine

end HostScript
