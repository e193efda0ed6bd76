import HostScript.Proofs.Machine.Addressing

/-!
# Proofs/Machine/Jumps — jumps end what they are written in

A `break` leaves the innermost loop around it and a `return` the innermost function, and both are
known to wait on the stack: `Waits.to_loop` and `Waits.to_call` find them, with nothing above that
could catch the jump before.  Taking that off step by step ends the loop or the call with the value of
the jump, as `jumps_end_their_regions` says.
-/

namespace HostScript

/-! ## Where a jump goes -/

section

variable {s : Store} {place : Standpoint} {stack : List Pending} {a : Activation}
  {l : Option (Label × Code)} {label : Label} {inner : Code} {p : Pending}

/-- **A loop that waits** for a place in its body, with nothing above it that catches exits. -/
def LoopWaits (a : Activation) (label : Label) (inner : Code) (stack before rest : List Pending) :
    Prop :=
  stack = before ++ .loop a.env label inner :: rest ∧ (∀ p ∈ before, ¬ p.Catches) ∧
    ∃ outer, a.template.body.Stands outer (.loop label inner)

/-- **A call that waits** for its function to return, with nothing above it that is called or loaded. -/
def CallWaits (label : Label) (stack before rest : List Pending) : Prop :=
  stack = before ++ .call (some label) :: rest ∧ ∀ p ∈ before, ¬ p.Begins

theorem LoopWaits.cons (free : ¬ p.Catches) (h : ∃ before rest, LoopWaits a label inner stack before rest) :
    ∃ before rest, LoopWaits a label inner (p :: stack) before rest := by
  obtain ⟨before, rest, rfl, clear, stands⟩ := h
  exact ⟨p :: before, rest, rfl, List.forall_mem_cons.2 ⟨free, clear⟩, stands⟩

theorem CallWaits.cons (free : ¬ p.Begins) (h : ∃ before rest, CallWaits label stack before rest) :
    ∃ before rest, CallWaits label (p :: stack) before rest := by
  obtain ⟨before, rest, rfl, clear⟩ := h
  exact ⟨p :: before, rest, rfl, List.forall_mem_cons.2 ⟨free, clear⟩⟩

/-- **The innermost loop around a place waits on the stack.** -/
theorem Waits.to_loop (h : Waits s place stack) (inside : place = .inside a (some (label, inner))) :
    ∃ before rest, LoopWaits a label inner stack before rest := by
  induction h with
  | bottom alone =>
    subst inside
    cases alone.1
  | load alone _ _ _ =>
    subst inside
    cases alone.1
  | call _ _ _ _ => cases inside
  | @loop b outer again body tail stands waits _ =>
    cases inside
    exact ⟨[], tail, rfl, nofun, outer, stands⟩
  | bind _ ih => exact LoopWaits.cons id (ih inside)
  | locate _ ih => exact LoopWaits.cons id (ih inside)
  | operands _ _ ih => exact LoopWaits.cons id (ih inside)
  | write _ _ ih => exact LoopWaits.cons id (ih inside)
  | test _ _ ih => exact LoopWaits.cons id (ih inside)
  | sequence _ _ ih => exact LoopWaits.cons id (ih inside)
  | leave _ _ ih => exact LoopWaits.cons id (ih inside)
  | give _ _ _ ih => exact LoopWaits.cons id (ih inside)

/-- **The call of the function around a place waits on the stack.** -/
theorem Waits.to_call (h : Waits s place stack) (inside : place = .inside a l)
    (own : a.template.returnLabel? = some label) :
    a.IsCall s ∧ ∃ before rest, CallWaits label stack before rest := by
  refine ⟨?_, ?_⟩
  · rcases h.isCall_or_isModule inside with called | module
    · exact called
    · exact absurd (module.returnLabel?.symm.trans own) nofun
  induction h generalizing l with
  | bottom alone =>
    subst inside
    exact absurd (alone.2.returnLabel?.symm.trans own) nofun
  | load alone _ _ _ =>
    subst inside
    exact absurd (alone.2.returnLabel?.symm.trans own) nofun
  | @call b outer tail _ _ _ _ =>
    cases inside
    rw [own]
    exact ⟨[], tail, rfl, nofun⟩
  | loop _ _ ih =>
    cases inside
    exact CallWaits.cons id (ih rfl)
  | bind _ ih => exact CallWaits.cons id (ih inside)
  | locate _ ih => exact CallWaits.cons id (ih inside)
  | operands _ _ ih => exact CallWaits.cons id (ih inside)
  | write _ _ ih => exact CallWaits.cons id (ih inside)
  | test _ _ ih => exact CallWaits.cons id (ih inside)
  | sequence _ _ ih => exact CallWaits.cons id (ih inside)
  | leave _ _ ih => exact CallWaits.cons id (ih inside)
  | give _ _ _ ih => exact CallWaits.cons id (ih inside)

end

/-- Where nothing can be left or returned from, exits are failures. -/
theorem Standpoint.Outermost.fails {place : Standpoint} {s : Store} {e : Exit}
    (h : place.Outermost s) (allowed : place.Allows (.exit e)) : ∃ error, e = .fail error := by
  cases e with
  | fail error => exact ⟨error, rfl⟩
  | leave label v =>
    obtain ⟨a, inner, rfl⟩ := allowed
    cases h.1
  | give label v =>
    obtain ⟨a, l, rfl, own⟩ := allowed
    exact absurd (h.2.returnLabel?.symm.trans own) nofun

/-! ## Unwinding -/

namespace Machine

variable {setting : Setting} {e : Exit} {before rest : List Pending} {s : Store} {label : Label}
  {v : Value}

/-- Whether an exit only passes pending work. -/
def Passes (e : Exit) (p : Pending) : Prop :=
  ∀ stack s, unwind e p stack s = ⟨.exit e, stack, s⟩

theorem passes_leave {p : Pending} (h : ¬ p.Catches) : Passes (.leave label v) p := by
  intro stack s
  cases p with
  | loop _ _ _ => exact absurd trivial h
  | call _ => exact absurd trivial h
  | load _ => exact absurd trivial h
  | _ => rfl

theorem passes_give {p : Pending} (h : ¬ p.Begins) : Passes (.give label v) p := by
  intro stack s
  cases p with
  | call _ => exact absurd trivial h
  | load _ => exact absurd trivial h
  | _ => rfl

/-- **An exit takes off the stack what it passes**, one piece with each step. -/
theorem unwinds (passes : ∀ p ∈ before, Passes e p) {n : Nat} (within : n ≤ before.length) :
    (step setting)^[n] ⟨.exit e, before ++ rest, s⟩ = ⟨.exit e, before.drop n ++ rest, s⟩ := by
  induction before generalizing n with
  | nil =>
    obtain rfl := Nat.le_zero.1 within
    rfl
  | cons p before ih =>
    cases n with
    | zero => rfl
    | succ n =>
      rw [Function.iterate_succ_apply]
      have first : step setting ⟨.exit e, p :: before ++ rest, s⟩ = ⟨.exit e, before ++ rest, s⟩ :=
        passes p List.mem_cons_self (before ++ rest) s
      rw [first]
      exact ih (fun q mem => passes q (List.mem_cons_of_mem _ mem)) (Nat.le_of_succ_le_succ within)

/-- **How a jump ends pending work**: step by step it takes off the stack what is above, and then the
work itself; the rest of the stack goes on with the value of the jump, in the same store. -/
structure Ends (setting : Setting) (c : Config) (e : Exit) (v : Value) (before : List Pending)
    (work : Pending) (rest : List Pending) : Prop where
  stack : c.stack = before ++ work :: rest
  passes (n : Nat) : n ≤ before.length →
    (step setting)^[n] c = ⟨.exit e, c.stack.drop n, c.store⟩
  ends : (step setting)^[before.length + 1] c = ⟨.value v, rest, c.store⟩

theorem ends_of_passes {work : Pending} (passes : ∀ p ∈ before, Passes e p)
    (caught : unwind e work rest s = ⟨.value v, rest, s⟩) :
    Ends setting ⟨.exit e, before ++ work :: rest, s⟩ e v before work rest := by
  refine ⟨rfl, fun n within => ?_, ?_⟩
  · rw [unwinds passes within]
    dsimp only
    rw [List.drop_append_of_le_length within]
  · rw [Function.iterate_succ_apply', unwinds passes (Nat.le_refl _), List.drop_length]
    exact caught

/-- A jump out of the loop that waits for it. -/
theorem ends_leave {a : Activation} {inner : Code} {stack : List Pending}
    (h : LoopWaits a label inner stack before rest) :
    Ends setting ⟨.exit (.leave label v), stack, s⟩ (.leave label v) v before
      (.loop a.env label inner) rest := by
  obtain ⟨rfl, clear, -⟩ := h
  exact ends_of_passes (fun p mem => passes_leave (clear p mem)) (if_pos rfl)

/-- A return from the call that waits for it. -/
theorem ends_give {stack : List Pending} (h : CallWaits label stack before rest) :
    Ends setting ⟨.exit (.give label v), stack, s⟩ (.give label v) v before (.call (some label))
      rest := by
  obtain ⟨rfl, clear⟩ := h
  exact ends_of_passes (fun p mem => passes_give (clear p mem)) (if_pos rfl)

end Machine

/-! ## Jumps -/

/-- **Jumps end what they are written in.**  At every moment of a machine:

* where a `break` is evaluated, the loop that waits with nothing above it to catch exits is the loop
  in whose body the `break` stands, in the same activation;
* once the `break` has its value, all above that loop is taken off the stack, the loop with it, and
  what waits for the loop goes on with the value;
* where a `return` is evaluated, the call that waits with no other above it is that of the function in
  whose body the `return` stands;
* once the `return` has its value, all above that call is taken off the stack, the call with it, and
  what waits for the call goes on with the value;
* every exit that is under way ends in one of these ways or is a failure;
* only failures get out of a machine or a load, and out of a call only these and its own returns. -/
theorem jumps_end_their_regions (registry : Registry) (setting : Setting) (c : Config)
    (moment : Moment registry setting c) :
    (∀ env label value, c.control = .eval env (.leave label value) →
      ∃ a inner before rest, a.env = env ∧ LoopWaits a label inner c.stack before rest ∧
        inner.Stands none (.leave label value)) ∧
    (∀ v label below, c.control = .value v → c.stack = .leave label :: below →
      ∃ a inner before rest value, LoopWaits a label inner below before rest ∧
        inner.Stands none (.leave label value) ∧
        Machine.Ends setting (Machine.step setting c) (.leave label v) v before
          (.loop a.env label inner) rest) ∧
    (∀ env label value, c.control = .eval env (.give label value) →
      ∃ (a : Activation) (l : _) (before rest : _), a.env = env ∧ a.IsCall c.store ∧
        a.template.returnLabel? = some label ∧ CallWaits label c.stack before rest ∧
        a.template.body.Stands l (.give label value)) ∧
    (∀ v label below, c.control = .value v → c.stack = .give label :: below →
      ∃ (a : Activation) (l : _) (before rest : _) (value : Code), a.IsCall c.store ∧
        a.template.returnLabel? = some label ∧ CallWaits label below before rest ∧
        a.template.body.Stands l (.give label value) ∧
        Machine.Ends setting (Machine.step setting c) (.give label v) v before
          (.call (some label)) rest) ∧
    (∀ e, c.control = .exit e → (∃ error, e = .fail error) ∨
      (∃ label v env inner before rest, e = .leave label v ∧
        Machine.Ends setting c e v before (.loop env label inner) rest) ∨
      ∃ label v before rest, e = .give label v ∧
        Machine.Ends setting c e v before (.call (some label)) rest) ∧
    (∀ e, c.control = .exit e → c.stack = [] → ∃ error, e = .fail error) ∧
    (∀ e load rest, c.control = .exit e → c.stack = .load load :: rest →
      ∃ error, e = .fail error) ∧
    ∀ e label? rest, c.control = .exit e → c.stack = .call label? :: rest →
      (∃ error, e = .fail error) ∨ ∃ label v, e = .give label v ∧ label? = some label := by
  obtain ⟨place, store, within, allowed, waits⟩ := (Invariant.sound registry).moment moment
  obtain ⟨control, stack, s⟩ := c
  have exits : ∀ e, control = .exit e → (∃ error, e = .fail error) ∨
      (∃ label v env inner before rest, e = .leave label v ∧
        Machine.Ends setting ⟨control, stack, s⟩ e v before (.loop env label inner) rest) ∨
      ∃ label v before rest, e = .give label v ∧
        Machine.Ends setting ⟨control, stack, s⟩ e v before (.call (some label)) rest := by
    rintro e rfl
    cases e with
    | fail error => exact .inl ⟨error, rfl⟩
    | leave label v =>
      obtain ⟨a, inner, inside⟩ := allowed
      obtain ⟨before, rest, loop⟩ := waits.to_loop inside
      exact .inr (.inl ⟨label, v, a.env, inner, before, rest, rfl, Machine.ends_leave loop⟩)
    | give label v =>
      obtain ⟨a, l, inside, own⟩ := allowed
      obtain ⟨-, before, rest, call⟩ := waits.to_call inside own
      exact .inr (.inr ⟨label, v, before, rest, rfl, Machine.ends_give call⟩)
  refine ⟨?_, ?_, ?_, ?_, exits, ?_, ?_, ?_⟩
  · rintro env label value rfl
    obtain ⟨a, l, rfl, rfl, stands⟩ := allowed
    obtain ⟨chain, -, fits⟩ := Activation.Sound.fits within stands
    cases fits with
    | leave around _ =>
      obtain ⟨⟨_, inner⟩, rfl, rfl⟩ := Option.map_eq_some_iff.1 around
      obtain ⟨before, rest, loop⟩ := waits.to_loop rfl
      exact ⟨a, inner, before, rest, rfl, loop, stands.in_loop⟩
  · rintro v label below rfl rfl
    cases waits with
    | @leave a _ inner value _ stands waits =>
      obtain ⟨before, rest, loop⟩ := waits.to_loop rfl
      exact ⟨a, inner, before, rest, value, loop, stands.in_loop, Machine.ends_leave loop⟩
  · rintro env label value rfl
    obtain ⟨a, l, rfl, rfl, stands⟩ := allowed
    obtain ⟨chain, -, fits⟩ := Activation.Sound.fits within stands
    cases fits with
    | give own _ =>
      obtain ⟨called, before, rest, call⟩ := waits.to_call rfl own
      exact ⟨a, l, before, rest, rfl, called, own, call, stands⟩
  · rintro v label below rfl rfl
    cases waits with
    | @give a l _ value _ stands own waits =>
      obtain ⟨called, before, rest, call⟩ := waits.to_call rfl own
      exact ⟨a, l, before, rest, value, called, own, call, stands, Machine.ends_give call⟩
  · rintro e rfl rfl
    cases waits with
    | bottom alone => exact alone.fails allowed
  · rintro e load rest rfl rfl
    cases waits with
    | load alone _ _ => exact alone.fails allowed
  · rintro e label? rest rfl rfl
    cases waits with
    | call _ _ _ =>
      cases e with
      | fail error => exact .inl ⟨error, rfl⟩
      | leave label v =>
        obtain ⟨_, _, inside⟩ := allowed
        cases inside
      | give label v =>
        obtain ⟨_, _, inside, own⟩ := allowed
        cases inside
        exact .inr ⟨label, v, rfl, own⟩

/-- The pending jump that is about to be made with a value. -/
def Config.jump? (c : Config) : Option (Label ⊕ Label) :=
  match c.control, c.stack with
  | .value _, .leave label :: _ => some (.inl label)
  | .value _, .give label :: _ => some (.inr label)
  | _, _ => none

/-- A lambda with a loop in a loop, which leaves the inner loop and returns from the outer one. -/
theorem jumps_end_their_regions_nested :
    let text := "var f = lambda (n) loop { loop { break (n) } return n + 1 }; f(4)"
    let setting : Setting := ⟨.initial, #[], .empty⟩
    (∃ c v env inner before rest, Config.ofSource text 17 = some c ∧
      Machine.Ends setting (Machine.step setting c) (.leave ⟨2⟩ v) v before (.loop env ⟨2⟩ inner)
        rest) ∧
    ∃ c v before rest, Config.ofSource text 28 = some c ∧
      Machine.Ends setting (Machine.step setting c) (.give ⟨0⟩ v) v before (.call (some ⟨0⟩)) rest := by
  intro text setting
  refine ⟨?_, ?_⟩
  · have ends : (Config.ofSource text 17).bind Config.jump? = some (.inl ⟨2⟩) := by decide +kernel
    obtain ⟨⟨control, stack, s⟩, reached, jumps⟩ := Option.bind_eq_some_iff.1 ends
    obtain ⟨-, leaving, -⟩ :=
      jumps_end_their_regions .initial setting _ (Config.moment_ofSource reached)
    unfold Config.jump? at jumps
    dsimp only at jumps
    split at jumps
    next v label below =>
      cases jumps
      obtain ⟨a, inner, before, rest, value, -, -, jump⟩ := leaving v ⟨2⟩ below rfl rfl
      exact ⟨_, v, a.env, inner, before, rest, reached, jump⟩
    next => cases jumps
    next => cases jumps
  · have ends : (Config.ofSource text 28).bind Config.jump? = some (.inr ⟨0⟩) := by decide +kernel
    obtain ⟨⟨control, stack, s⟩, reached, jumps⟩ := Option.bind_eq_some_iff.1 ends
    obtain ⟨-, -, -, returning, -⟩ :=
      jumps_end_their_regions .initial setting _ (Config.moment_ofSource reached)
    unfold Config.jump? at jumps
    dsimp only at jumps
    split at jumps
    next => cases jumps
    next v label below =>
      cases jumps
      obtain ⟨a, l, before, rest, value, -, -, -, -, jump⟩ := returning v ⟨0⟩ below rfl rfl
      exact ⟨_, v, before, rest, reached, jump⟩
    next => cases jumps

end HostScript
