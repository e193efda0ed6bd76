import HostScript.Proofs.Machine.Exits

/-!
# Proofs/Machine/Results — what calls return

The body of a function runs above the call that waits for it, and what it comes to there is what it comes to
on its own (`Machine.Runs`).  It comes to a value, or it is left by the exit of a `return`, and this leads
back to one that has been evaluated in the same activation (`Machine.Runs.falls`).  With what the label of a
template says of its definition, this gives the value of each call (`calls_return`).
-/

namespace HostScript

namespace Machine

variable {setting : Setting} {c d : Config}

/-! ## Calls -/

/-- **A call that completes**: after a number of steps there is a value for what waits for the call, and
until then something of the call waits above that. -/
structure Completes (setting : Setting) (c : Config) (n : Nat) (v : Value) (after : Store) : Prop where
  ends : (step setting)^[n] c = ⟨.value v, c.stack, after⟩
  waits (k : Nat) : 0 < k → k < n → c.stack.length < ((step setting)^[k] c).stack.length

/-- **A `return` of a call that executes**, after a number of steps: it is evaluated with no activation begun
since the call's, and its value is there when the code for it has been run. -/
structure Gives (setting : Setting) (c : Config) (k : Nat) (env : Env) (label : Label) (value : Code)
    (s : Store) (x : Value) (t : Store) : Prop where
  evaluated : ∃ above label?, (∀ p ∈ above, ¬ p.Begins) ∧
    (step setting)^[k] c = ⟨.eval env (.give label value), above ++ .call label? :: c.stack, s⟩
  yields : ∃ fuel, run setting fuel ⟨.eval env value, [], s⟩ = some (.ok x, t)

/-- **The body of a call**, as a machine of its own, and how many steps this takes to its answer. -/
structure Runs (setting : Setting) (c : Config) (template : Template Code) (n : Nat) (d : Config)
    (m : Nat) : Prop where
  begins : step setting c = d.onto (.call template.returnLabel? :: c.stack)
  body : ∃ env s, d = ⟨.eval env template.body, [], s⟩
  busy : ∀ k < m, answer? ((step setting)^[k] d) = none
  answers : (answer? ((step setting)^[m] d)).isSome
  ends : n = m + 2

section

variable {template : Template Code} {n m k : Nat} {v x : Value} {after s t : Store} {env : Env}
  {label : Label} {value : Code}

/-- Until its body has come to an answer, a call does what the body does. -/
theorem Runs.state (h : Runs setting c template n d m) (within : k ≤ m) :
    (step setting)^[k + 1] c =
      ((step setting)^[k] d).onto (.call template.returnLabel? :: c.stack) := by
  rw [Function.iterate_succ_apply, h.begins]
  exact iterate_onto fun i lt => h.busy i (Nat.lt_of_lt_of_le lt within)

/-- An exit takes off a call that it reaches, whether the call catches it or not. -/
theorem stack_unwind_call (e : Exit) (label? : Option Label) (below : List Pending) (s : Store) :
    (unwind e (.call label?) below s).stack = below := by
  match e, unwind e (.call label?) below s, unwindsTo e (.call label?) below s with
  | _, _, .returned | _, _, .failed _ | _, _, .passed _ => rfl

/-- Entering a function of a script begins with its body, or fails at once. -/
theorem step_enter {f : FunctionInfo} {args : List Value} (entered : c.control = .enter f args)
    {outer : FrameId} {module : NamespaceId} {rt : RuntimeId}
    (found : c.store.function? f.id = some (.script template outer module rt)) :
    (∃ d : Config, step setting c = d.onto (.call template.returnLabel? :: c.stack) ∧
      ∃ env s, d = ⟨.eval env template.body, [], s⟩) ∨ ∃ e s, step setting c = ⟨.exit e, c.stack, s⟩ := by
  obtain ⟨control, stack, s⟩ := c
  obtain rfl := entered
  show (∃ d : Config, enter setting f args stack s = d.onto _ ∧ _) ∨
    ∃ e t, enter setting f args stack s = _
  match enter setting f args stack s, entersTo setting f args stack s with
  | _, .script other _ _ _ own _ =>
    obtain ⟨rfl, -⟩ := Callable.script.inj (Option.some.inj (own.symm.trans found))
    exact .inl ⟨⟨.eval _ other.body, [], _⟩, rfl, _, _, rfl⟩
  | _, .dropped _ _ => exact .inr ⟨_, _, rfl⟩
  | _, .native _ own _ => cases own.symm.trans found
  | _, .noNative own _ => cases own.symm.trans found
  | _, .noFunction own => cases own.symm.trans found

/-- **A call that completes runs the body of its function.** -/
theorem Completes.runs (h : Completes setting c n v after) {f : FunctionInfo} {args : List Value}
    (entered : c.control = .enter f args) {outer : FrameId} {module : NamespaceId} {rt : RuntimeId}
    (found : c.store.function? f.id = some (.script template outer module rt)) :
    ∃ d m, Runs setting c template n d m := by
  obtain _ | n := n
  · exact absurd (entered.symm.trans (congrArg Config.control h.ends)) nofun
  rcases step_enter entered found with ⟨d, begins, body⟩ | ⟨e, s, fails⟩
  · have below := congrArg (fun c : Config => c.stack.length) h.ends
    rw [Function.iterate_succ_apply, begins] at below
    obtain ⟨m, lt, answered, busy⟩ := answers_above (below.trans_lt (Nat.lt_succ_self _))
    refine ⟨d, m, begins, body, busy, answered, ?_⟩
    by_contra differs
    have later := h.waits (m + 2) (Nat.succ_pos _) (by omega)
    rw [Function.iterate_succ_apply', Function.iterate_succ_apply, begins, iterate_onto busy,
      stack_answered _ answered (fun _ _ => rfl) fun e => stack_unwind_call e _ _] at later
    exact absurd later (Nat.lt_irrefl _)
  · obtain _ | n := n
    · have ends := h.ends
      rw [Function.iterate_one, fails] at ends
      cases ends
    · have later := h.waits 1 Nat.one_pos (by omega)
      rw [Function.iterate_one, fails] at later
      exact absurd later (Nat.lt_irrefl _)

/-- **How the body of a call that completes ends**: with a value, of which nothing is left if the function
has a label, or with an exit to this label. -/
theorem Runs.cases (h : Runs setting c template n d m) (completes : Completes setting c n v after) :
    (∃ y, (step setting)^[m] d = ⟨.value y, [], after⟩ ∧
      v = if template.returnLabel?.isSome then .null else y) ∨
    ∃ label, template.returnLabel? = some label ∧
      (step setting)^[m] d = ⟨.exit (.give label v), [], after⟩ := by
  have ends := completes.ends
  rw [h.ends, Function.iterate_succ_apply', h.state (Nat.le_refl m)] at ends
  rcases answer?_isSome h.answers with ⟨y, same⟩ | ⟨e, same⟩
  · rw [same] at ends ⊢
    cases ends
    exact .inl ⟨y, rfl, rfl⟩
  · rw [same] at ends ⊢
    have caught := unwindsTo e (.call template.returnLabel?) c.stack ((step setting)^[m] d).store
    rw [show unwind e _ _ _ = _ from ends] at caught
    generalize template.returnLabel? = label? at caught ⊢
    cases caught with
    | returned => exact .inr ⟨_, rfl, rfl⟩

/-- **A call in which no `return` executes** ends with its body. -/
theorem Runs.falls (h : Runs setting c template n d m) (completes : Completes setting c n v after)
    (none : ∀ k < n, ∀ env label value s x t, ¬ Gives setting c k env label value s x t) :
    ∃ y, (∃ fuel, run setting fuel d = some (.ok y, after)) ∧
      v = if template.returnLabel?.isSome then .null else y := by
  rcases h.cases completes with ⟨y, same, returned⟩ | ⟨label, own, same⟩
  · refine ⟨y, run_iff.2 ⟨m, h.busy, ?_⟩, returned⟩
    rw [same]
    exact ⟨rfl, rfl⟩
  · obtain ⟨env, s, body⟩ := h.body
    obtain ⟨k, inner, value, above, s, before, evaluated, clear, yields⟩ :=
      gives_of_exit (congrArg Config.control body) (congrArg Config.stack body)
        (congrArg Config.control same) (by rw [same]; nofun)
    refine absurd ⟨⟨above, template.returnLabel?, clear, ?_⟩, yields⟩
      (none (k + 1) (by rw [h.ends]; omega) inner label value s v _)
    rw [h.state (Nat.le_of_lt before), evaluated]
    rfl

/-- A call completes when the stack is first what it was. -/
theorem Completes.eq_of_back (h : Completes setting c n v after) (before : k < n) {last : Nat}
    (pos : 0 < last)
    (longer : ∀ j, k < j → j < last → c.stack.length < ((step setting)^[j] c).stack.length)
    (back : ((step setting)^[last] c).stack = c.stack) : n = last := by
  refine Nat.le_antisymm (Nat.not_lt.1 fun more => ?_) (Nat.not_lt.1 fun less => ?_)
  · have waits := h.waits last pos more
    rw [back] at waits
    exact absurd waits (Nat.lt_irrefl _)
  · have waits := longer n before less
    rw [h.ends] at waits
    exact absurd waits (Nat.lt_irrefl _)

/-- **What is left of a call once it has come to a `return`**: the code for the value is run, and then the
call is left with this value.  Nothing else is evaluated. -/
def Finishes (setting : Setting) (c : Config) (k n : Nat) (own : Config) (label : Label) (x : Value)
    (after : Store) : Prop :=
  ∃ m base, (step setting)^[m] own = ⟨.value x, [], after⟩ ∧
    (∀ j ≤ m, (step setting)^[k + 1 + j] c = ((step setting)^[j] own).onto base) ∧
    ∀ j, k + 1 + m < j → j < n → ∃ rest, (step setting)^[j] c = ⟨.exit (.give label x), rest, after⟩

/-- **A `return` that executes gives the value of the call**, and the call finishes with it. -/
theorem Gives.ends (h : Gives setting c k env label value s x t)
    (completes : Completes setting c n v after) (before : k < n) :
    v = x ∧ Finishes setting c k n ⟨.eval env value, [], s⟩ label x after := by
  obtain ⟨⟨above, label?, clear, evaluated⟩, yields⟩ := h
  obtain ⟨m, busy, answered, rfl⟩ := run_iff.1 yields
  have there := answer?_ok answered
  generalize own : (⟨.eval env value, [], s⟩ : Config) = d at *
  have works (j : Nat) (within : j ≤ m) : (step setting)^[k + 1 + j] c =
      ((step setting)^[j] d).onto (.give label :: (above ++ .call label? :: c.stack)) := by
    rw [Nat.add_comm, Function.iterate_add_apply, Function.iterate_succ_apply', evaluated, ← own]
    exact iterate_onto fun i lt => own ▸ busy i (Nat.lt_of_lt_of_le lt within)
  have leaves (j : Nat) (within : j ≤ above.length) : (step setting)^[k + 1 + m + 1 + j] c =
      ⟨.exit (.give label x), above.drop j ++ .call label? :: c.stack, ((step setting)^[m] d).store⟩ := by
    rw [Nat.add_comm, Function.iterate_add_apply, Function.iterate_succ_apply', works m (Nat.le_refl m),
      there]
    exact unwinds (fun p mem => passes_give (clear p mem)) within
  have last : (step setting)^[k + 1 + m + 1 + above.length + 1] c =
      unwind (.give label x) (.call label?) c.stack ((step setting)^[m] d).store := by
    rw [Function.iterate_succ_apply', leaves _ (Nat.le_refl _), List.drop_length]
    rfl
  have total : n = k + 1 + m + 1 + above.length + 1 := by
    refine completes.eq_of_back before (Nat.succ_pos _) (fun j after within => ?_)
      (last ▸ stack_unwind_call _ _ _ _)
    rcases Nat.lt_or_ge (k + 1 + m) j with later | early
    · obtain ⟨i, rfl⟩ := Nat.exists_eq_add_of_le later
      rw [leaves i (by omega)]
      simp
      omega
    · obtain ⟨i, rfl⟩ := Nat.exists_eq_add_of_le after
      rw [works i (by omega)]
      simp [Config.onto]
      omega
  have ends := completes.ends
  rw [total, last] at ends
  have caught := unwindsTo (.give label x) (.call label?) c.stack ((step setting)^[m] d).store
  rw [ends] at caught
  cases caught with
  | returned =>
    refine ⟨rfl, m, _, there, works, fun j lt le => ?_⟩
    obtain ⟨i, rfl⟩ := Nat.exists_eq_add_of_le lt
    exact ⟨_, leaves i (by omega)⟩

end

end Machine

/-! ## What is returned -/

/-- Of the code of an activation can be said that it returns what its body does. -/
def Provenance.returnsOf (body : Code) : Provenance where
  unit _ := True
  code stack code := (∀ p ∈ stack, ¬ p.Begins) → code.gives ⊆ body.gives
  template _ := True
  next own mem clear := List.Subset.trans (Code.answers_next mem).1 (own clear)
  above own clear := own fun p mem => clear p (List.mem_cons_of_mem _ mem)
  made _ := trivial
  called _ clear := absurd trivial (clear _ List.mem_cons_self)
  loaded _ _ clear := absurd trivial (clear _ List.mem_cons_self)

namespace Machine

variable {setting : Setting} {c d : Config} {template : Template Code} {n m k : Nat} {v x : Value}
  {s t : Store} {env : Env} {label : Label} {value : Code}

/-- **A `return` of a call stands in the body of its own function.** -/
theorem Runs.mem_gives (h : Runs setting c template n d m)
    (gives : Gives setting c k env label value s x t) (before : k < n)
    (busy : c.control.code? = none) : value ∈ template.body.gives := by
  obtain ⟨above, label?, clear, evaluated⟩ := gives.evaluated
  obtain _ | k := k
  · cases busy.symm.trans (congrArg (fun c : Config => c.control.code?) evaluated)
  obtain ⟨outer, t, rfl⟩ := h.body
  rw [h.state (by have := h.ends; omega)] at evaluated
  obtain ⟨control, under, -⟩ := Config.mk.inj evaluated
  obtain ⟨stack, -⟩ := List.append_inj' under rfl
  have begins : Config.Has (.returnsOf template.body) ⟨.eval outer template.body, [], t⟩ :=
    ⟨Provenance.goes_eval fun _ => List.Subset.refl _, trivial, fun _ _ _ _ _ _ _ => trivial⟩
  have has : Config.Has (.returnsOf template.body) ((step setting)^[k] _) :=
    has_iterate (fun _ _ _ _ => trivial) begins k
  have goes := has.control
  rw [stack, control] at goes
  exact goes _ rfl clear List.mem_cons_self

/-- A `return` without a value returns true. -/
theorem eq_true_of_run {env : Env} {s t : Store} {x : Value}
    (h : ∃ fuel, run setting fuel ⟨.eval env (.constant (.bool true)), [], s⟩ = some (.ok x, t)) :
    x = .bool true := by
  obtain ⟨fuel, ran⟩ := h
  match fuel with
  | 0 | 1 => cases ran
  | _ + 2 =>
    cases ran
    rfl

end Machine

/-- A state with nothing that waits. -/
def Config.alone (c : Config) : Config := { c with stack := [] }

/-- **What a call of a function of a script returns**, in any session.  The function has been compiled from
a definition in a source; and whatever definition that is, its template is made from the body of this, and of
each call that completes:

* where a `return` of the call executes, its value is the value of the call; the code for it is one that a
  `return` of the definition's own body is compiled to, or the value is true if that has none; and once the
  value is there nothing more is evaluated;
* where none does, the body comes to a value on its own; the value of the call is null if the definition is
  a lambda or has a `return` of its own anywhere in its body, and what the body came to if neither. -/
theorem calls_return (registry : Registry) (setting : Setting) (c : Config)
    (moment : Moment registry setting c) (f : FunctionInfo) (args : List Value)
    (template : Template Code) (outer : FrameId) (module : NamespaceId) (rt : RuntimeId)
    (entered : c.control = .enter f args)
    (found : c.store.function? f.id = some (.script template outer module rt)) :
    template.IsDefined ∧ ∀ source definition, template.IsOf source definition →
      (∃ w w', Compile.Yields (Compile.node (placesOf source) definition.body) w template.body w') ∧
      ∀ n v after, Machine.Completes setting c n v after →
        (∀ k < n, ∀ env label value s x t, Machine.Gives setting c k env label value s x t →
          v = x ∧ Machine.Finishes setting c k n ⟨.eval env value, [], s⟩ label x after ∧
          ∃ value? ∈ definition.body.returns, Compile.Returns (placesOf source) value? value ∧
            (value? = none → x = .bool true)) ∧
        ((∀ k < n, ∀ env label value s x t, ¬ Machine.Gives setting c k env label value s x t) →
          ∃ env y fuel, (Machine.step setting c).control = .eval env template.body ∧
            Machine.run setting fuel (Machine.step setting c).alone = some (.ok y, after) ∧
            (definition.name? = none ∨ definition.body.returns ≠ [] → v = .null) ∧
            (definition.name? ≠ none → definition.body.returns = [] → v = y)) := by
  refine ⟨moment.isDefined found, fun source definition is_of => ?_⟩
  have defines := is_of.defines
  refine ⟨defines.body, fun n v after completes => ?_⟩
  obtain ⟨d, m, runs⟩ := completes.runs entered found
  constructor
  · intro k before env label value s x t gives
    obtain ⟨same, finishes⟩ := gives.ends completes before
    have own := runs.mem_gives gives before (by rw [entered]; rfl)
    obtain ⟨value?, among, returns⟩ := defines.exists_return own
    refine ⟨same, finishes, value?, among, returns, ?_⟩
    rintro rfl
    obtain rfl : value = .constant (.bool true) := returns
    exact Machine.eq_true_of_run gives.yields
  · intro none
    obtain ⟨y, ⟨fuel, ran⟩, returned⟩ := runs.falls completes none
    obtain ⟨env, s, rfl⟩ := runs.body
    rw [runs.begins]
    refine ⟨env, y, fuel, rfl, ran, fun labelled => ?_, fun named bare => ?_⟩
    · rw [returned, if_pos (defines.label.2 labelled)]
    · rw [returned, if_neg fun labelled => (defines.label.1 labelled).elim named fun some => some bare]

/-- The state in which a host calls the first function of a source that it has run. -/
def Config.ofCall (text : String) (args : List Value) : Option Config :=
  let setting : Setting := ⟨.initial, #[], .empty⟩
  Turn.stateAfter (Turn.opening ++ [⟨setting, 100, .source ⟨0⟩ ⟨1⟩ text⟩]) setting
    (.call ⟨⟨0⟩, "f", args.length⟩ args) 0

theorem Value.eq_null_of_same {v : Value} (h : v.same .null = true) : v = .null := by
  cases v with
  | null => rfl
  | _ => cases h

theorem Value.eq_int_of_same {v : Value} {i : Int64} (h : v.same (.int i) = true) : v = .int i := by
  cases v with
  | int j => rw [eq_of_beq h]
  | _ => cases h

theorem Value.eq_bool_of_same {v : Value} {b : Bool} (h : v.same (.bool b) = true) : v = .bool b := by
  cases v with
  | bool a => rw [eq_of_beq h]
  | _ => cases h

/-- What a call from a host returns after a number of steps, if it completes just then. -/
def Config.returns? (setting : Setting) (c : Config) (n : Nat) : Option Value :=
  if (List.range n).all fun k => k = 0 || 0 < ((Machine.step setting)^[k] c).stack.length then
    match (Machine.step setting)^[n] c with
    | ⟨.value v, [], _⟩ => some v
    | _ => none
  else none

/-- Whether a state enters the first function, one of a script, with nothing that waits. -/
def Config.entersFirst (c : Config) : Bool :=
  match c.control, c.store.function? ⟨0⟩, c.stack with
  | .enter f _, some (.script ..), [] => decide (f.id = ⟨0⟩)
  | _, _, _ => false

theorem Config.enters_of_entersFirst {c : Config} (h : c.entersFirst = true) :
    c.stack = [] ∧ ∃ f args template outer module rt, c.control = .enter f args ∧
      c.store.function? f.id = some (.script template outer module rt) := by
  unfold entersFirst at h
  split at h
  next f args template outer module rt entered found bare =>
    exact ⟨bare, f, args, template, outer, module, rt, entered, of_decide_eq_true h ▸ found⟩
  next => cases h

/-- Whether a `return` without a value is evaluated for a call that nothing waits for. -/
def Config.givesTrue : Config → Bool
  | ⟨.eval _ (.give _ (.constant (.bool true))), [.call _], _⟩ => true
  | _ => false

theorem Config.eq_of_givesTrue {c : Config} (h : c.givesTrue = true) : ∃ env label label? s,
    c = ⟨.eval env (.give label (.constant (.bool true))), [.call label?], s⟩ := by
  unfold givesTrue at h
  split at h
  next env label label? s => exact ⟨env, label, label?, s, rfl⟩
  next => cases h

/-- Whether a `return` is evaluated. -/
def Config.givesNow (c : Config) : Bool :=
  match c.control with
  | .eval _ (.give _ _) => true
  | _ => false

theorem Config.moment_ofCall {text : String} {args : List Value} {c : Config}
    (h : ofCall text args = some c) : Moment .initial ⟨.initial, #[], .empty⟩ c := by
  unfold ofCall at h
  refine Turn.moment_stateAfter (fun turn mem => ?_) rfl h
  rcases List.mem_append.1 mem with before | last
  · exact Turn.registry_opening turn before
  · rw [List.mem_singleton.1 last]

theorem Config.completes_of_returns? {setting : Setting} {c : Config} {n : Nat} {v : Value}
    (bare : c.stack = []) (h : c.returns? setting n = some v) :
    ∃ after, Machine.Completes setting c n v after := by
  unfold returns? at h
  split at h
  next waits =>
    split at h
    next after ends =>
      cases h
      refine ⟨after, bare ▸ ends, fun k pos lt => ?_⟩
      have longer := List.all_eq_true.1 waits k (List.mem_range.2 lt)
      rw [bare]
      simpa [Nat.pos_iff_ne_zero.1 pos] using longer
    next => cases h
  next => cases h

/-- A function with a `return` that executes where it is passed 4 and not where it is passed 3: it returns
true for the one and null for the other, though its body comes to 3. -/
theorem calls_return_guarded :
    let text := "function f(n) if n == 4 \x7b return \x7d else \x7b n \x7d"
    let setting : Setting := ⟨.initial, #[], .empty⟩
    (∃ c after fuel, Config.ofCall text [.int 3] = some c ∧ Machine.Completes setting c 13 .null after ∧
      Machine.run setting fuel (Machine.step setting c).alone = some (.ok (.int 3), after)) ∧
    ∃ c after env label value s t, Config.ofCall text [.int 4] = some c ∧
      Machine.Completes setting c 14 (.bool true) after ∧
      Machine.Gives setting c 10 env label value s (.bool true) t ∧
      Machine.Finishes setting c 10 14 ⟨.eval env value, [], s⟩ label (.bool true) after := by
  intro text setting
  constructor
  · have checked : (Config.ofCall text [.int 3]).any fun c =>
        decide (c.entersFirst = true ∧ ((c.returns? setting 13).any fun v => v.same .null) = true ∧
          ((List.range 13).all fun k => !((Machine.step setting)^[k] c).givesNow) = true ∧
          ((Machine.run setting 20 (Machine.step setting c).alone).any fun done =>
            done.1.toOption.any fun v => v.same (.int 3)) = true) := by decide +kernel
    obtain ⟨c, begins, facts⟩ := (Option.any_eq_true _ _).1 checked
    obtain ⟨enters, returned, quiet, ran⟩ := of_decide_eq_true facts
    obtain ⟨bare, f, args, template, outer, module, rt, entered, found⟩ :=
      Config.enters_of_entersFirst enters
    obtain ⟨v, returned, null⟩ := (Option.any_eq_true _ _).1 returned
    obtain rfl := Value.eq_null_of_same null
    obtain ⟨after, completes⟩ := Config.completes_of_returns? bare returned
    obtain ⟨⟨source, definition, is_of⟩, returns⟩ := calls_return .initial setting c
      (Config.moment_ofCall begins) f args template outer module rt entered found
    obtain ⟨-, falls⟩ := (returns source definition is_of).2 13 .null after completes
    obtain ⟨env, y, fuel, -, body, -⟩ := falls fun k lt env label value s x t gives => by
      obtain ⟨above, label?, -, evaluated⟩ := gives.evaluated
      have none := List.all_eq_true.1 quiet k (List.mem_range.2 lt)
      rw [evaluated] at none
      cases none
    obtain ⟨⟨result, last⟩, ran, three⟩ := (Option.any_eq_true _ _).1 ran
    have same := (Machine.run_of_le (Nat.le_max_left fuel 20) body).symm.trans
      (Machine.run_of_le (Nat.le_max_right fuel 20) ran)
    obtain ⟨rfl, rfl⟩ := Prod.mk.inj (Option.some.inj same)
    obtain rfl := Value.eq_int_of_same three
    exact ⟨c, _, fuel, begins, completes, body⟩
  · have checked : (Config.ofCall text [.int 4]).any fun c =>
        decide (c.entersFirst = true ∧
          ((c.returns? setting 14).any fun v => v.same (.bool true)) = true ∧
          ((Machine.step setting)^[10] c).givesTrue = true) := by decide +kernel
    obtain ⟨c, begins, facts⟩ := (Option.any_eq_true _ _).1 checked
    obtain ⟨enters, returned, given⟩ := of_decide_eq_true facts
    obtain ⟨bare, f, args, template, outer, module, rt, entered, found⟩ :=
      Config.enters_of_entersFirst enters
    obtain ⟨v, returned, truth⟩ := (Option.any_eq_true _ _).1 returned
    obtain rfl := Value.eq_bool_of_same truth
    obtain ⟨after, completes⟩ := Config.completes_of_returns? bare returned
    obtain ⟨⟨source, definition, is_of⟩, returns⟩ := calls_return .initial setting c
      (Config.moment_ofCall begins) f args template outer module rt entered found
    obtain ⟨env, label, label?, s, evaluated⟩ := Config.eq_of_givesTrue given
    have gives : Machine.Gives setting c 10 env label (.constant (.bool true)) s (.bool true) s :=
      ⟨⟨[], label?, List.forall_mem_nil _, by rw [bare]; exact evaluated⟩, 2, rfl⟩
    obtain ⟨executes, -⟩ := (returns source definition is_of).2 14 (.bool true) after completes
    obtain ⟨-, finishes, -⟩ := executes 10 (by decide) _ _ _ _ _ _ gives
    exact ⟨c, after, env, label, _, s, s, begins, completes, gives, finishes⟩

end HostScript
