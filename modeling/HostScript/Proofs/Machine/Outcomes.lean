import HostScript.Proofs.Machine.Exits
import HostScript.Proofs.Machine.Unplaced

/-!
# Proofs/Machine/Outcomes — machines that come to the same

States that are similar, that is, equal up to positions and rules, go on in the same way
(`Config.Similar.step`).  Two machines have the same outcome when each answers what the other one answers,
up to the position of a failure, and leaves a similar store behind (`Machine.SameOutcome`).  Operations whose
operands are compiled alike have the same outcome if they have it once the operands are there:
`SameOutcome.awaiting`.
-/

namespace HostScript

/-! ## Similar states -/

/-- Stores that are equal up to positions and rules. -/
def Store.Similar (s t : Store) : Prop := s.unplaced.Alike t.unplaced

/-- States that are equal up to positions and rules. -/
def Config.Similar (c d : Config) : Prop := c.unplaced.Alike d.unplaced

namespace Store

variable {s t u : Store} {registry : Registry}

theorem Similar.refl (s : Store) : s.Similar s := Alike.refl _

theorem Similar.symm (h : s.Similar t) : t.Similar s := Alike.symm h

theorem Similar.trans (h : s.Similar t) (k : t.Similar u) : s.Similar u := Alike.trans h k

theorem Similar.heap (h : s.Similar t) : s.toHeap = t.toHeap := by
  have alike : s.unplaced.Alike t.unplaced := h
  exact alike.heap

theorem Alike.unplaced (h : s.Alike t) : s.unplaced.Alike t.unplaced :=
  ⟨h.heap, h.frames, congrArg (Array.map _) h.functions, h.runtimes⟩

theorem Alike.similar (h : s.Alike t) : s.Similar t := h.unplaced

theorem Faithful.unplaced (h : s.Faithful registry) : s.unplaced.Faithful registry := h.of_runtimes rfl

end Store

namespace Config

variable {c d e : Config} {setting : Setting}

theorem Alike.trans (h : c.Alike d) (k : d.Alike e) : c.Alike e :=
  ⟨h.control.trans k.control, h.stack.trans k.stack, h.store.trans k.store⟩

theorem Alike.symm (h : c.Alike d) : d.Alike c := ⟨h.control.symm, h.stack.symm, h.store.symm⟩

theorem Alike.unplaced (h : c.Alike d) : c.unplaced.Alike d.unplaced :=
  ⟨congrArg Control.unplaced h.control, congrArg (List.map Pending.unplaced) h.stack, h.store.unplaced⟩

theorem Similar.symm (h : c.Similar d) : d.Similar c := Alike.symm h

theorem Similar.control (h : c.Similar d) : c.control.unplaced = d.control.unplaced := Alike.control h

theorem Similar.stack (h : c.Similar d) : c.stack.map Pending.unplaced = d.stack.map Pending.unplaced :=
  Alike.stack h

theorem Similar.store (h : c.Similar d) : c.store.Similar d.store := Alike.store h

/-- A state that is similar to one with an answer. -/
theorem Similar.value {v : Value} {s : Store} (h : c.Similar d) (ends : c = ⟨.value v, [], s⟩) :
    ∃ t, d = ⟨.value v, [], t⟩ ∧ s.Similar t := by
  subst ends
  obtain ⟨control, stack, t⟩ := d
  have same := h.control
  obtain rfl := List.map_eq_nil_iff.1 h.stack.symm
  cases control with
  | value w =>
    cases same
    exact ⟨t, rfl, h.store⟩
  | _ => cases same

/-- A state that is similar to one with an exit. -/
theorem Similar.exit {e : Exit} {s : Store} (h : c.Similar d) (ends : c = ⟨.exit e, [], s⟩) :
    ∃ e' t, d = ⟨.exit e', [], t⟩ ∧ e.unplaced = e'.unplaced ∧ s.Similar t := by
  subst ends
  obtain ⟨control, stack, t⟩ := d
  have same := h.control
  obtain rfl := List.map_eq_nil_iff.1 h.stack.symm
  cases control with
  | exit e' => exact ⟨e', t, rfl, Control.exit.inj same, h.store⟩
  | _ => cases same

/-- **Similar states stay similar.** -/
theorem Similar.step (h : c.Similar d) (left : c.store.Faithful setting.registry)
    (right : d.store.Faithful setting.registry) :
    (Machine.step setting c).Similar (Machine.step setting d) := by
  have alike : c.unplaced.Alike d.unplaced := h
  have same : d.unplaced.Alike d.unplaced := ⟨rfl, rfl, .refl _⟩
  have first : (Machine.step setting c.unplaced).Alike _ := Machine.alike_step left.unplaced alike
  have second : (Machine.step setting d.unplaced).Alike _ := Machine.alike_step right.unplaced same
  have both := (first.trans second.symm).unplaced
  rw [← Machine.unplaced_step, ← Machine.unplaced_step] at both
  exact both

theorem faithful_iterate (h : c.store.Faithful setting.registry) (n : Nat) :
    ((Machine.step setting)^[n] c).store.Faithful setting.registry := by
  induction n with
  | zero => exact h
  | succ n ih =>
    rw [Function.iterate_succ_apply']
    exact Machine.faithful_step ih

theorem Similar.iterate (h : c.Similar d) (left : c.store.Faithful setting.registry)
    (right : d.store.Faithful setting.registry) (n : Nat) :
    ((Machine.step setting)^[n] c).Similar ((Machine.step setting)^[n] d) := by
  induction n with
  | zero => exact h
  | succ n ih =>
    rw [Function.iterate_succ_apply', Function.iterate_succ_apply']
    exact ih.step (faithful_iterate left n) (faithful_iterate right n)

end Config

namespace Machine

variable {setting : Setting} {c d : Config}

/-- **Similar states have similar answers.** -/
theorem answer?_of_similar (h : c.Similar d) :
    (answer? c).map (·.mapError EvalError.cause) = (answer? d).map (·.mapError EvalError.cause) := by
  have same (c : Config) : (answer? c).map (·.mapError EvalError.cause) =
      (answer? c.unplaced).map (·.mapError EvalError.cause) := by
    obtain ⟨control, stack, s⟩ := c
    cases stack with
    | cons => cases control <;> rfl
    | nil =>
      cases control with
      | exit e => cases e <;> rfl
      | _ => rfl
  have alike : c.unplaced.Alike d.unplaced := h
  rw [same, same d, answer?_of_alike alike]

/-! ## Outcomes -/

/-- **What a machine comes to**: an answer, up to the position of a failure, and the store that is left. -/
def Comes (setting : Setting) (c : Config) (kind : Except EvalError.Cause Value) (s : Store) : Prop :=
  ∃ fuel answer, run setting fuel c = some (answer, s) ∧ answer.mapError EvalError.cause = kind

/-- A machine that comes to whatever another one comes to. -/
def Follows (setting : Setting) (c d : Config) : Prop :=
  ∀ kind s, Comes setting c kind s → ∃ t, Comes setting d kind t ∧ s.Similar t

/-- **Machines with the same outcome.** -/
def SameOutcome (setting : Setting) (c d : Config) : Prop := Follows setting c d ∧ Follows setting d c

variable {kind : Except EvalError.Cause Value} {s : Store}

/-- An answered machine stays where it is. -/
theorem step_of_answer? (answered : (answer? c).isSome) : step setting c = c := by
  rcases answer?_isSome answered with ⟨v, same⟩ | ⟨e, same⟩ <;> (rw [same]; rfl)

theorem comes_step : Comes setting (step setting c) kind s ↔ Comes setting c kind s := by
  cases found : answer? c with
  | some answer => rw [step_of_answer? (Option.isSome_of_eq_some found)]
  | none =>
    constructor
    · rintro ⟨fuel, answer, ran, same⟩
      refine ⟨fuel + 1, answer, ?_, same⟩
      rw [run, found]
      exact ran
    · rintro ⟨fuel, answer, ran, same⟩
      cases fuel with
      | zero => cases ran
      | succ fuel =>
        rw [run, found] at ran
        exact ⟨fuel, answer, ran, same⟩

/-- What a machine comes to is what it comes to from any of its later states. -/
theorem comes_iterate (n : Nat) : Comes setting ((step setting)^[n] c) kind s ↔ Comes setting c kind s := by
  induction n generalizing c with
  | zero => exact Iff.rfl
  | succ n ih =>
    rw [Function.iterate_succ_apply]
    exact ih.trans comes_step

/-- **What a machine comes to** is the answer of one of its later states. -/
theorem comes_iff : Comes setting c kind s ↔ ∃ n,
    (answer? ((step setting)^[n] c)).map (·.mapError EvalError.cause) = some kind ∧
      ((step setting)^[n] c).store = s := by
  constructor
  · rintro ⟨fuel, answer, ran, rfl⟩
    obtain ⟨n, -, answered, same⟩ := run_iff.1 ⟨fuel, ran⟩
    exact ⟨n, by rw [answered]; rfl, same⟩
  · rintro ⟨n, answered, rfl⟩
    obtain ⟨answer, found, rfl⟩ := Option.map_eq_some_iff.1 answered
    exact (comes_iterate n).1 ⟨1, answer, by rw [run, found], rfl⟩

theorem Follows.trans {e : Config} (h : Follows setting c d) (k : Follows setting d e) :
    Follows setting c e := by
  intro kind s comes
  obtain ⟨t, comes, first⟩ := h kind s comes
  obtain ⟨u, comes, second⟩ := k kind t comes
  exact ⟨u, comes, first.trans second⟩

theorem follows_iterate (n : Nat) : Follows setting c ((step setting)^[n] c) := fun _ s comes =>
  ⟨s, (comes_iterate n).2 comes, .refl s⟩

theorem iterate_follows (n : Nat) : Follows setting ((step setting)^[n] c) c := fun _ s comes =>
  ⟨s, (comes_iterate n).1 comes, .refl s⟩

theorem follows_of_similar (h : c.Similar d) (left : c.store.Faithful setting.registry)
    (right : d.store.Faithful setting.registry) : Follows setting c d := by
  intro kind s comes
  obtain ⟨n, answered, rfl⟩ := comes_iff.1 comes
  have later := h.iterate left right n
  exact ⟨_, comes_iff.2 ⟨n, (answer?_of_similar later).symm.trans answered, rfl⟩, later.store⟩

namespace SameOutcome

variable {e : Config}

theorem symm (h : SameOutcome setting c d) : SameOutcome setting d c := ⟨h.2, h.1⟩

theorem trans (h : SameOutcome setting c d) (k : SameOutcome setting d e) : SameOutcome setting c e :=
  ⟨h.1.trans k.1, k.2.trans h.2⟩

/-- A machine and one of its later states. -/
theorem iterate (c : Config) (n : Nat) : SameOutcome setting c ((step setting)^[n] c) :=
  ⟨follows_iterate n, iterate_follows n⟩

theorem of_iterate {n m : Nat} (h : SameOutcome setting ((step setting)^[n] c) ((step setting)^[m] d)) :
    SameOutcome setting c d := (iterate c n).trans (h.trans (iterate d m).symm)

theorem of_similar (h : c.Similar d) (left : c.store.Faithful setting.registry)
    (right : d.store.Faithful setting.registry) : SameOutcome setting c d :=
  ⟨follows_of_similar h left right, follows_of_similar h.symm right left⟩

end SameOutcome

/-! ## Above waiting work -/

/-- **Similar machines above other work**: the work below goes on from what they come to. -/
theorem SameOutcome.onto {below other : List Pending} (h : c.Similar d)
    (left : c.store.Faithful setting.registry) (right : d.store.Faithful setting.registry)
    (next : ∀ n, (answer? ((step setting)^[n] c)).isSome →
      SameOutcome setting (((step setting)^[n] c).onto below) (((step setting)^[n] d).onto other)) :
    SameOutcome setting (c.onto below) (d.onto other) := by
  have together (n : Nat) : (answer? ((step setting)^[n] c)).isSome =
      (answer? ((step setting)^[n] d)).isSome := by
    have same := congrArg Option.isSome (answer?_of_similar (h.iterate left right n))
    rwa [Option.isSome_map, Option.isSome_map] at same
  by_cases ends : ∃ n, (answer? ((step setting)^[n] c)).isSome
  · classical
    have first := Nat.find_spec ends
    have busy (k : Nat) (lt : k < Nat.find ends) : answer? ((step setting)^[k] c) = none :=
      Option.not_isSome_iff_eq_none.1 (Nat.find_min ends lt)
    have busy' (k : Nat) (lt : k < Nat.find ends) : answer? ((step setting)^[k] d) = none :=
      Option.not_isSome_iff_eq_none.1 (together k ▸ Nat.find_min ends lt)
    have later := next _ first
    rw [← iterate_onto busy, ← iterate_onto busy'] at later
    exact later.of_iterate
  · have never {e : Config} {K : List Pending} (silent : ∀ n, ¬(answer? ((step setting)^[n] e)).isSome) :
        ∀ kind s, ¬Comes setting (e.onto K) kind s := by
      rintro kind s ⟨fuel, answer, ran, -⟩
      obtain ⟨n, _, answered, -⟩ := run_onto ran
      exact silent n answered
    refine ⟨fun kind s comes => (never (not_exists.1 ends) kind s comes).elim,
      fun kind s comes => (never (fun n found => ends ⟨n, ?_⟩) kind s comes).elim⟩
    rw [together n]
    exact found

/-! ## Operands -/

/-- **What codes are evaluated to**, one after another. -/
inductive Operands (setting : Setting) (env : Env) : List Code → Store → List Value → Store → Prop where
  | nil {s : Store} : Operands setting env [] s [] s
  | cons {code : Code} {codes : List Code} {s t u : Store} {v : Value} {vs : List Value} {n : Nat} :
    (step setting)^[n] ⟨.eval env code, [], s⟩ = ⟨.value v, [], t⟩ →
    Operands setting env codes t vs u → Operands setting env (code :: codes) s (v :: vs) u

/-- The state in which some operands of an operation are there, the last one first, and others are still to
be evaluated. -/
def awaiting (env : Env) (position : Position) (signature : Signature) (done : List Value) :
    List Code → List Pending → Store → Config
  | [], stack, s => operate env position signature done.reverse stack s
  | next :: todo, stack, s => ⟨.eval env next, .operands env position signature done todo :: stack, s⟩

section

variable {env : Env} {p q : Position} {signature signature' : Signature} {done done' : List Value}
  {stack : List Pending}

theorem step_operation (codes : List Code) (s : Store) :
    step setting ⟨.eval env (.dispatch p signature codes), stack, s⟩ =
      awaiting env p signature [] codes stack s := by
  cases codes <;> rfl

theorem step_operand (v : Value) (todo : List Code) (s : Store) :
    step setting ⟨.value v, .operands env p signature done todo :: stack, s⟩ =
      awaiting env p signature (v :: done) todo stack s := by
  cases todo <;> rfl

/-- **An operand that is evaluated in similar ways**: the operations have the same outcome if they have it
once its value is there. -/
theorem SameOutcome.operand {todo todo' : List Code} (similar : c.Similar d)
    (left : c.store.Faithful setting.registry) (right : d.store.Faithful setting.registry)
    (next : ∀ n v t t', (step setting)^[n] c = ⟨.value v, [], t⟩ → t.Similar t' →
      t.Faithful setting.registry → t'.Faithful setting.registry →
      SameOutcome setting (Machine.awaiting env p signature (v :: done) todo stack t)
        (Machine.awaiting env q signature' (v :: done') todo' stack t')) :
    SameOutcome setting (c.onto (.operands env p signature done todo :: stack))
      (d.onto (.operands env q signature' done' todo' :: stack)) := by
  refine .onto similar left right fun n answered => ?_
  have later := similar.iterate left right n
  have faithful := Config.faithful_iterate left n
  have faithful' := Config.faithful_iterate right n
  rcases answer?_isSome answered with ⟨v, ends⟩ | ⟨e, ends⟩
  · obtain ⟨t', ends', alike⟩ := later.value ends
    rw [ends'] at faithful' ⊢
    rw [ends]
    have resumed := next n v _ t' ends alike faithful faithful'
    rw [← @step_operand setting, ← @step_operand setting] at resumed
    exact of_iterate (n := 1) (m := 1) resumed
  · obtain ⟨e', t', ends', same, alike⟩ := later.exit ends
    rw [ends'] at faithful' ⊢
    have unwound : (Config.mk (.exit e) stack ((step setting)^[n] c).store).Similar ⟨.exit e', stack, t'⟩ :=
      ⟨congrArg Control.exit same, rfl, alike⟩
    have after : SameOutcome setting _ _ := of_similar unwound faithful faithful'
    rw [ends]
    exact of_iterate (n := 1) (m := 1) after

/-- **Operations with operands that are the same up to positions** have the same outcome if they have it
when the operands are there: by induction on the operands. -/
theorem SameOutcome.awaiting {codes codes' : List Code} {s s' : Store}
    (same : Code.unplacedAll codes = Code.unplacedAll codes') (similar : s.Similar s')
    (left : s.Faithful setting.registry) (right : s'.Faithful setting.registry)
    (next : ∀ vs t t', Operands setting env codes s vs t → t.Similar t' → t.Faithful setting.registry →
      t'.Faithful setting.registry →
      SameOutcome setting (operate env p signature (done.reverse ++ vs) stack t)
        (operate env q signature' (done'.reverse ++ vs) stack t')) :
    SameOutcome setting (Machine.awaiting env p signature done codes stack s)
      (Machine.awaiting env q signature' done' codes' stack s') := by
  induction codes generalizing codes' done done' s s' with
  | nil =>
    cases codes' with
    | cons => cases same
    | nil =>
      have all := next [] s s' .nil similar left right
      rwa [List.append_nil, List.append_nil] at all
  | cons code codes ih =>
    cases codes' with
    | nil => cases same
    | cons code' codes' =>
      obtain ⟨one, rest⟩ := List.cons.inj same
      have begins : (Config.mk (.eval env code) [] s).Similar ⟨.eval env code', [], s'⟩ :=
        ⟨congrArg (Control.eval env) one, rfl, similar⟩
      refine .operand begins left right fun n v t t' ran alike faithful faithful' => ?_
      refine ih rest alike faithful faithful' fun vs u u' operands => ?_
      have all := next (v :: vs) u u' (.cons ran operands)
      rwa [List.reverse_cons, List.reverse_cons, List.append_assoc, List.append_assoc]

end

end Machine

end HostScript
