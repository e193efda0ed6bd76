import HostScript.Proofs.Compile.Closings
import HostScript.Proofs.Dispatch.Caches
import HostScript.Proofs.Machine.Outcomes
import HostScript.Proofs.Syntax.Closings

/-!
# Proofs/Machine/Terminators — what sources and calls come to with a terminator more

A terminator after the last statement of a source or of a body is taken by that statement or is an empty
statement, which yields null.  Evaluating the statements with null after them is evaluating the statements and
then null (`Machine.sameOutcome_closed`).  A source therefore comes to null where it would have come to a
value, and fails where it would have failed (`Machine.Nulls`); so does a call, unless the function has a label
for its `return`s, in which case the end of the body yields null anyhow (`terminators_taken_or_null`).
-/

namespace HostScript

open Node (closing endTakes)
open Code (unplacedAll)

theorem Code.unplaced_eq_null {code : Code} (h : code.unplaced = .null) : code = .null := by
  cases code <;> first | rfl | cases h

/-- A list that is another one with null after it, up to positions. -/
theorem Code.unplacedAll_eq_null {code : Code} {codes : List Code}
    (h : unplacedAll (code :: codes) = [.null]) : code = .null ∧ codes = [] := by
  obtain ⟨first, rest⟩ := List.cons.inj h
  refine ⟨unplaced_eq_null first, ?_⟩
  cases codes with
  | nil => rfl
  | cons => cases rest

namespace Machine

variable {setting : Setting} {env : Env} {c d : Config} {stack : List Pending}

/-! ## Null after statements -/

/-- **A machine that comes to null** where another one comes to a value, and fails where that fails. -/
def Nulls (setting : Setting) (c d : Config) : Prop :=
  (∀ kind s, Comes setting c kind s → ∃ t, Comes setting d (kind.map fun _ => .null) t ∧ s.Similar t) ∧
    ∀ kind s, Comes setting d kind s →
      ∃ kind' t, Comes setting c kind' t ∧ kind = kind'.map (fun _ => .null) ∧ s.Similar t

/-- Similar machines above other work have the same outcome if they have it from what they come to. -/
theorem SameOutcome.above {below other : List Pending} (h : c.Similar d)
    (left : c.store.Faithful setting.registry) (right : d.store.Faithful setting.registry)
    (value : ∀ v (s t : Store), s.Similar t → s.Faithful setting.registry → t.Faithful setting.registry →
      SameOutcome setting ⟨.value v, below, s⟩ ⟨.value v, other, t⟩)
    (exit : ∀ e e' (s t : Store), e.unplaced = e'.unplaced → s.Similar t → s.Faithful setting.registry →
      t.Faithful setting.registry → SameOutcome setting ⟨.exit e, below, s⟩ ⟨.exit e', other, t⟩) :
    SameOutcome setting (c.onto below) (d.onto other) := by
  refine .onto h left right fun n answered => ?_
  have later := h.iterate left right n
  have faithful := Config.faithful_iterate left n
  have faithful' := Config.faithful_iterate right n
  rcases answer?_isSome answered with ⟨v, ends⟩ | ⟨e, ends⟩
  · obtain ⟨t, ends', alike⟩ := later.value ends
    rw [ends'] at faithful' ⊢
    rw [ends]
    exact value v _ t alike faithful faithful'
  · obtain ⟨e', t, ends', same, alike⟩ := later.exit ends
    rw [ends'] at faithful' ⊢
    rw [ends]
    exact exit e e' _ t same alike faithful faithful'

theorem SameOutcome.of_values {s t : Store} (v : Value) (stack : List Pending) (h : s.Similar t)
    (left : s.Faithful setting.registry) (right : t.Faithful setting.registry) :
    SameOutcome setting ⟨.value v, stack, s⟩ ⟨.value v, stack, t⟩ := .of_similar ⟨rfl, rfl, h⟩ left right

theorem SameOutcome.of_exits {s t : Store} {e e' : Exit} (stack : List Pending) (same : e.unplaced = e'.unplaced)
    (h : s.Similar t) (left : s.Faithful setting.registry) (right : t.Faithful setting.registry) :
    SameOutcome setting ⟨.exit e, stack, s⟩ ⟨.exit e', stack, t⟩ :=
  .of_similar ⟨congrArg Control.exit same, rfl, h⟩ left right

/-- The first of some codes and the rest of them, when they are others with null after them. -/
theorem exists_cons {codes others : List Code} (same : unplacedAll others = unplacedAll codes ++ [.null]) :
    ∃ code more, others = code :: more := by
  refine List.exists_cons_of_ne_nil fun none => ?_
  subst none
  exact absurd (congrArg List.length same) (by rw [List.length_append]; exact Nat.noConfusion)

/-- **Statements that wait, and null after them**: null may be one of the statements, or wait below them.  By
induction on the statements. -/
theorem sameOutcome_waiting {codes others : List Code}
    (same : unplacedAll others = unplacedAll codes ++ [.null]) (v : Value) {s t : Store} (alike : s.Similar t)
    (left : s.Faithful setting.registry) (right : t.Faithful setting.registry) :
    SameOutcome setting ⟨.value v, .sequence env others :: stack, s⟩
      ⟨.value v, .sequence env codes :: .sequence env [.null] :: stack, t⟩ := by
  obtain ⟨code, more, rfl⟩ := exists_cons same
  induction codes generalizing code more v s t with
  | nil =>
    obtain ⟨rfl, rfl⟩ := Code.unplacedAll_eq_null same
    exact .of_iterate (n := 3) (m := 4) (.of_values .null stack alike left right)
  | cons next codes ih =>
    obtain ⟨first, rest⟩ := List.cons.inj same
    have begins : (Config.mk (.eval env code) [] s).Similar ⟨.eval env next, [], t⟩ :=
      ⟨congrArg (Control.eval env) first, rfl, alike⟩
    obtain ⟨second, others, rfl⟩ := exists_cons rest
    refine .of_iterate (n := 1) (m := 1) (.above begins left right ?_ ?_)
    · exact fun v s t alike left right => ih v alike left right second others rest
    · exact fun e e' s t same alike left right =>
        .of_iterate (n := 1) (m := 2) (.of_exits stack same alike left right)

/-- **Evaluating closed code is evaluating the code and then null**, where the terminator is an empty
statement. -/
theorem sameOutcome_closed {code other : Code} (closed : code.ClosedAs false other) {s t : Store}
    (alike : s.Similar t) (left : s.Faithful setting.registry) (right : t.Faithful setting.registry) :
    SameOutcome setting ⟨.eval env other, stack, s⟩
      ⟨.eval env code, .sequence env [.null] :: stack, t⟩ := by
  obtain ⟨codes, others, rfl, rfl, same⟩ := closed
  have same : unplacedAll others = unplacedAll codes ++ [.null] := same
  obtain ⟨code, more, rfl⟩ := exists_cons same
  match codes, more, same with
  | [], _, same =>
    obtain ⟨rfl, rfl⟩ := Code.unplacedAll_eq_null same
    exact .of_iterate (n := 1) (m := 4) (.of_values .null stack alike left right)
  | [next], _, same =>
    obtain ⟨first, rest⟩ := List.cons.inj same
    obtain ⟨second, others, rfl⟩ := @exists_cons [] _ rest
    obtain ⟨rfl, rfl⟩ := Code.unplacedAll_eq_null rest
    have begins : (Config.mk (.eval env code) (.sequence env [.null] :: stack) s).Similar
        ⟨.eval env next, .sequence env [.null] :: stack, t⟩ := ⟨congrArg (Control.eval env) first, rfl, alike⟩
    exact .of_iterate (n := 1) (m := 0) (.of_similar begins left right)
  | next :: second :: codes, _, same =>
    obtain ⟨first, rest⟩ := List.cons.inj same
    obtain ⟨third, others, rfl⟩ := @exists_cons (second :: codes) _ rest
    have begins : (Config.mk (.eval env code) [] s).Similar ⟨.eval env next, [], t⟩ :=
      ⟨congrArg (Control.eval env) first, rfl, alike⟩
    refine .of_iterate (n := 1) (m := 1) (.above begins left right ?_ ?_)
    · exact fun v s t alike left right => sameOutcome_waiting rest v alike left right
    · exact fun e e' s t same alike left right =>
        .of_iterate (n := 1) (m := 2) (.of_exits stack same alike left right)

/-! ## Null instead of a value -/

/-- An answered machine comes to its answer and nothing else. -/
theorem comes_of_answer? {answer : Except EvalError Value} (answered : answer? c = some answer)
    {kind : Except EvalError.Cause Value} {s : Store} :
    Comes setting c kind s ↔ answer.mapError EvalError.cause = kind ∧ c.store = s := by
  have stays (n : Nat) : (step setting)^[n] c = c :=
    Function.iterate_fixed (step_of_answer? (Option.isSome_of_eq_some answered)) n
  rw [comes_iff]
  constructor
  · rintro ⟨n, found, store⟩
    rw [stays] at found store
    rw [answered] at found
    exact ⟨Option.some.inj found, store⟩
  · rintro ⟨rfl, rfl⟩
    exact ⟨0, by rw [stays, answered]; rfl, by rw [stays]⟩

/-- What an answered machine comes to with null below it. -/
theorem comes_null_of_answer? {answer : Except EvalError Value} (answered : answer? c = some answer)
    {kind : Except EvalError.Cause Value} {s : Store} :
    Comes setting (c.onto [.sequence env [.null]]) kind s ↔
      (answer.mapError EvalError.cause).map (fun _ => .null) = kind ∧ c.store = s := by
  rcases answer?_isSome (Option.isSome_of_eq_some answered) with ⟨v, same⟩ | ⟨e, same⟩
  · rw [same] at answered ⊢
    obtain rfl := Option.some.inj answered
    have ends : (step setting)^[3] ((Config.mk (.value v) [] c.store).onto [.sequence env [.null]]) =
        ⟨.value .null, [], c.store⟩ := rfl
    rw [← comes_iterate 3, ends]
    exact @comes_of_answer? setting _ (.ok .null) rfl kind s
  · rw [same] at answered ⊢
    obtain rfl := Option.some.inj answered
    have ends : (step setting)^[1] ((Config.mk (.exit e) [] c.store).onto [.sequence env [.null]]) =
        ⟨.exit e, [], c.store⟩ := rfl
    rw [← comes_iterate 1, ends]
    exact @comes_of_answer? setting _ (.error e.toError) rfl kind s

/-- **What a machine comes to with null below it**: null where it comes to a value, and its failures. -/
theorem comes_null {kind : Except EvalError.Cause Value} {s : Store} :
    Comes setting (c.onto [.sequence env [.null]]) kind s ↔
      ∃ kind', Comes setting c kind' s ∧ kind = kind'.map fun _ => .null := by
  constructor
  · rintro ⟨fuel, answer, ran, rfl⟩
    obtain ⟨n, rest, answered, above, ran⟩ := run_onto ran
    obtain ⟨own, found⟩ := Option.isSome_iff_exists.1 answered
    obtain ⟨same, rfl⟩ := (comes_null_of_answer? found).1 ⟨rest, answer, ran, rfl⟩
    exact ⟨_, comes_iff.2 ⟨n, by rw [found]; rfl, rfl⟩, same.symm⟩
  · rintro ⟨_, ⟨fuel, answer, ran, rfl⟩, rfl⟩
    obtain ⟨n, busy, answered, rfl⟩ := run_iff.1 ⟨fuel, ran⟩
    rw [← comes_iterate n, iterate_onto busy]
    exact (comes_null_of_answer? answered).2 ⟨rfl, rfl⟩

/-- **What evaluates null after all comes to null.** -/
theorem SameOutcome.nulls (h : SameOutcome setting d (c.onto [.sequence env [.null]])) : Nulls setting c d := by
  constructor
  · intro kind s comes
    exact h.2 _ s (comes_null.2 ⟨kind, comes, rfl⟩)
  · intro kind s comes
    obtain ⟨t, comes, alike⟩ := h.1 kind s comes
    obtain ⟨kind', comes, same⟩ := comes_null.1 comes
    exact ⟨kind', t, comes, same, alike⟩

/-! ## Calls -/

section

variable {code other : Code} {s : Store} {taken : Bool}

/-- Null at the end of a body does not matter where the function has a label. -/
theorem sameOutcome_labelled (label : Label) (code : Code) (faithful : s.Faithful setting.registry) :
    SameOutcome setting ⟨.eval env code, .call (some label) :: stack, s⟩
      ⟨.eval env code, .sequence env [.null] :: .call (some label) :: stack, s⟩ := by
  have begins : (Config.mk (.eval env code) [] s).Similar ⟨.eval env code, [], s⟩ := ⟨rfl, rfl, .refl _⟩
  refine .above begins faithful faithful ?_ ?_
  · exact fun v s t alike left right => .of_iterate (n := 1) (m := 4) (.of_values .null stack alike left right)
  · exact fun e e' s t same alike left right =>
      .of_iterate (n := 0) (m := 1) (.of_exits (.call (some label) :: stack) same alike left right)

/-- Where the function has none, null may be evaluated after the call as well as at the end of the body. -/
theorem sameOutcome_unlabelled (code : Code) (faithful : s.Faithful setting.registry) :
    SameOutcome setting ⟨.eval env code, .sequence env [.null] :: .call none :: stack, s⟩
      ⟨.eval env code, .call none :: .sequence env [.null] :: stack, s⟩ := by
  have begins : (Config.mk (.eval env code) [] s).Similar ⟨.eval env code, [], s⟩ := ⟨rfl, rfl, .refl _⟩
  refine .above begins faithful faithful ?_ ?_
  · exact fun v s t alike left right => .of_iterate (n := 4) (m := 4) (.of_values .null stack alike left right)
  · intro e e' s t same alike left right
    have error : (Exit.fail e.toError).unplaced = (Exit.fail e'.toError).unplaced := by
      cases e <;> cases e' <;> first | exact same | cases same <;> rfl
    have unwound (e : Exit) (s : Store) (stack : List Pending) :
        unwind e (.call none) stack s = ⟨.exit (.fail e.toError), stack, s⟩ := by
      cases e <;> rfl
    refine .of_iterate (n := 2) (m := 2) ?_
    show SameOutcome setting (unwind e (.call none) stack s)
      (step setting (unwind e' (.call none) (.sequence env [.null] :: stack) t))
    rw [unwound, unwound]
    exact .of_exits stack error alike left right

/-- A body and the closed body, where null at the end does not matter or is not evaluated. -/
theorem sameOutcome_body (closed : code.ClosedAs taken other) (faithful : s.Faithful setting.registry)
    {label? : Option Label} (either : taken = true ∨ label?.isSome = true) :
    SameOutcome setting ⟨.eval env code, .call label? :: stack, s⟩
      ⟨.eval env other, .call label? :: stack, s⟩ := by
  cases taken with
  | true => exact .of_similar ⟨congrArg (Control.eval env) closed.unplaced, rfl, .refl _⟩ faithful faithful
  | false =>
    obtain ⟨label, rfl⟩ := Option.isSome_iff_exists.1 (either.resolve_left Bool.false_ne_true)
    exact (sameOutcome_labelled label code faithful).trans
      (sameOutcome_closed closed (.refl s) faithful faithful).symm

/-- A function of a script is entered if its runtime is there. -/
theorem step_enterScript {f : FunctionInfo} {template : Template Code} {frame : FrameId} {module : NamespaceId}
    {rt : RuntimeId} (there : s.function? f.id = some (.script template frame module rt))
    (args : List Value) (stack : List Pending) (setting : Setting) : step setting ⟨.enter f args, stack, s⟩ =
      if (s.runtime rt).alive then
        ⟨.eval ⟨(s.newFrame template.layout args (some frame)).1, module, rt⟩ template.body,
          .call template.returnLabel? :: stack, (s.newFrame template.layout args (some frame)).2⟩
      else ⟨.fail .runtimeDropped, stack, s⟩ := by
  show enter setting f args stack s = _
  rw [enter, there]

/-- **The calls of two functions whose bodies are a block and the closed block** have the same outcome if the
terminator is taken or the functions have a label; else the second one comes to null. -/
theorem outcome_enter {template : Template Code} (closed : template.body.ClosedAs taken other)
    (faithful : s.Faithful setting.registry) {f f' : FunctionInfo} {frame : FrameId} {module : NamespaceId}
    {rt : RuntimeId} (there : s.function? f.id = some (.script template frame module rt))
    (there' : s.function? f'.id = some (.script { template with body := other } frame module rt))
    (args : List Value) :
    (taken = true ∨ template.returnLabel?.isSome = true →
      ∀ stack, SameOutcome setting ⟨.enter f args, stack, s⟩ ⟨.enter f' args, stack, s⟩) ∧
    (taken = false → template.returnLabel? = none →
      Nulls setting ⟨.enter f args, [], s⟩ ⟨.enter f' args, [], s⟩) := by
  by_cases alive : (s.runtime rt).alive = true
  · have kept : (s.newFrame template.layout args (some frame)).2.Faithful setting.registry :=
      faithful.of_runtimes rfl
    have enters (stack : List Pending) := (step_enterScript there args stack setting).trans (if_pos alive)
    have enters' (stack : List Pending) := (step_enterScript there' args stack setting).trans (if_pos alive)
    dsimp only at enters'
    generalize s.newFrame template.layout args (some frame) = made at *
    refine ⟨fun either stack => .of_iterate (n := 1) (m := 1) ?_, ?_⟩
    · rw [Function.iterate_one, enters, enters']
      exact sameOutcome_body closed kept either
    · rintro rfl unlabelled
      rw [unlabelled] at enters enters'
      refine @SameOutcome.nulls setting ⟨made.1, module, rt⟩ _ _ (.of_iterate (n := 1) (m := 1) ?_)
      have below : (Config.mk (.enter f args) [] s).onto [.sequence ⟨made.1, module, rt⟩ [.null]] =
        ⟨.enter f args, [.sequence ⟨made.1, module, rt⟩ [.null]], s⟩ := rfl
      rw [Function.iterate_one, below, enters, enters']
      exact (sameOutcome_closed closed (.refl _) kept kept).trans (sameOutcome_unlabelled _ kept)
  · have fails (stack : List Pending) := (step_enterScript there args stack setting).trans (if_neg alive)
    have fails' (stack : List Pending) := (step_enterScript there' args stack setting).trans (if_neg alive)
    have same (stack : List Pending) : SameOutcome setting ⟨.enter f args, stack, s⟩ ⟨.enter f' args, stack, s⟩ := by
      refine .of_iterate (n := 1) (m := 1) ?_
      rw [Function.iterate_one, fails, fails']
      exact .of_exits stack rfl (.refl s) faithful faithful
    refine ⟨fun _ => same, fun _ _ => @SameOutcome.nulls setting ⟨frame, module, rt⟩ _ _ ?_⟩
    refine .of_iterate (n := 1) (m := 2) ?_
    show SameOutcome setting (step setting ⟨.enter f' args, [], s⟩)
      (step setting (step setting ⟨.enter f args, [.sequence ⟨frame, module, rt⟩ [.null]], s⟩))
    rw [fails, fails']
    exact .of_exits [] rfl (.refl s) faithful faithful

end

/-! ## Sources -/

section

variable {s : Store} {rt : RuntimeId} {module : NamespaceId} {text other : String} {tree tree' : Node}
  {program program' : Program}

/-- A source that is a program begins to run in an activation of its own. -/
theorem begin_source (faithful : s.Faithful setting.registry) (parsed : parse text = .ok tree)
    (compiled : (compile s.frames.size text.toList tree).1 = .ok program) :
    ∃ t, Request.begin setting s (.source rt module text) =
        .running ⟨.eval ⟨⟨s.frames.size⟩, module, rt⟩ program.code, [], t⟩ ∧
      t.Similar (s.newFrame program.layout [] none).2 ∧ t.Faithful setting.registry := by
  let requested := s.changeRules rt fun rules =>
    (compile s.frames.size text.toList tree).2.foldl Rules.request rules
  have prepared : s.prepare rt text = (.ok program, requested) :=
    Store.prepare_of_compiled parsed compiled
  have kept := faithful.prepare prepared
  have alike : requested.Alike s := (Store.Alike.refl s).changeRules rt _
  refine ⟨(requested.newFrame program.layout [] none).2, ?_, ?_, kept.of_runtimes rfl⟩
  · unfold Request.begin
    dsimp only
    rw [prepared]
    rfl
  · exact (alike.newFrame program.layout [] none).2.similar

/-- A source that begins to run is a program. -/
theorem compiled_of_begin {c : Config} (parsed : parse text = .ok tree)
    (begins : Request.begin setting s (.source rt module text) = .running c) :
    ∃ program, (compile s.frames.size text.toList tree).1 = .ok program := by
  unfold Request.begin at begins
  dsimp only at begins
  split at begins
  next program t prepared =>
    obtain ⟨_, same, compiled⟩ := Store.compiled_of_prepare prepared
    obtain rfl := Except.ok.inj (parsed.symm.trans same)
    exact ⟨program, compiled⟩
  next => cases begins

/-- **Sources of programs with one layout** that are closed have the outcome of the others, or come to null
where they come to a value. -/
theorem outcome_begin {taken : Bool} (faithful : s.Faithful setting.registry)
    (parsed : parse text = .ok tree) (parsed' : parse other = .ok tree')
    (compiled : (compile s.frames.size text.toList tree).1 = .ok program)
    (compiled' : (compile s.frames.size other.toList tree').1 = .ok program')
    (layout : program'.layout = program.layout) (closed : program.code.ClosedAs taken program'.code)
    {c d : Config} (begins : Request.begin setting s (.source rt module text) = .running c)
    (begins' : Request.begin setting s (.source rt module other) = .running d) :
    if taken then SameOutcome setting c d else Nulls setting c d := by
  obtain ⟨t, running, left, kept⟩ :=
    @begin_source setting s rt module text tree program faithful parsed compiled
  obtain ⟨t', running', right, kept'⟩ :=
    @begin_source setting s rt module other tree' program' faithful parsed' compiled'
  obtain rfl := Begun.running.inj (running.symm.trans begins)
  obtain rfl := Begun.running.inj (running'.symm.trans begins')
  rw [layout] at right
  have alike : t.Similar t' := left.trans right.symm
  cases taken with
  | true => exact .of_similar ⟨congrArg (Control.eval _) closed.unplaced, rfl, alike⟩ kept kept'
  | false =>
    exact (@sameOutcome_closed setting ⟨⟨s.frames.size⟩, module, rt⟩ [] _ _ closed t' t alike.symm kept' kept).nulls

end

end Machine

/-- Code is closed by a terminator that is taken just if only its positions change. -/
theorem Code.closedAs_of_unplaced {code other : Code} (same : code.unplaced = other.unplaced) :
    code.ClosedAs true other :=
  ⟨[code], [other], rfl, rfl, congrArg (fun code => [code]) same.symm⟩

/-- **Sources of which one is the other with a terminator more**, where it is taken or stands at the end: they
run together, and come to the same if the terminator is taken, else to null. -/
theorem ClosedAt.outcome {setting : Setting} {tokens : List Token} {i : Nat} {word : Token} {body : List Node}
    {tree tree' : Node} {text other : String} {s : Store} (h : ClosedAt tokens i word body tree tree')
    (either : endTakes false body = true ∨ word.kind = .endOfInput) (parsed : parse text = .ok tree)
    (parsed' : parse other = .ok tree') (faithful : s.Faithful setting.registry) (rt : RuntimeId)
    (module : NamespaceId) :
    ((∃ c, Request.begin setting s (.source rt module text) = .running c) ↔
      ∃ d, Request.begin setting s (.source rt module other) = .running d) ∧
    ∀ c d, Request.begin setting s (.source rt module text) = .running c →
      Request.begin setting s (.source rt module other) = .running d →
      if endTakes false body then Machine.SameOutcome setting c d else Machine.Nulls setting c d := by
  obtain ⟨both, codes⟩ := h.programs either s.frames.size text.toList other.toList
  constructor
  · constructor
    · rintro ⟨c, begins⟩
      obtain ⟨program, compiled⟩ := both.1 (Machine.compiled_of_begin parsed begins)
      obtain ⟨_, running, -⟩ := @Machine.begin_source setting s rt module _ _ _ faithful parsed' compiled
      exact ⟨_, running⟩
    · rintro ⟨d, begins⟩
      obtain ⟨program, compiled⟩ := both.2 (Machine.compiled_of_begin parsed' begins)
      obtain ⟨_, running, -⟩ := @Machine.begin_source setting s rt module _ _ _ faithful parsed compiled
      exact ⟨_, running⟩
  · intro c d begins begins'
    obtain ⟨program, compiled⟩ := Machine.compiled_of_begin parsed begins
    obtain ⟨program', compiled'⟩ := Machine.compiled_of_begin parsed' begins'
    obtain ⟨layout, codes⟩ := codes program program' compiled compiled'
    have closed : program.code.ClosedAs (endTakes false body) program'.code := by
      split at codes
      next taken => exact taken ▸ Code.closedAs_of_unplaced codes
      next free =>
        rw [Bool.not_eq_true] at free
        rw [free]
        exact codes
    exact Machine.outcome_begin faithful parsed parsed' compiled compiled' layout closed begins begins'

/-- Whether the calls of a function or lambda with a body come to what they come to without the terminator
after it: it is taken, or the end of the body yields null anyhow. -/
def Definition.KeepsOutcome (name? : Option String) (span : Span) (body : List Node) : Prop :=
  endTakes false body = true ∨ name? = none ∨ (Node.block span body).returns ≠ []

/-- **Codes that make functions of which one has the body of the other with a terminator more**: their
templates differ in the body, and calls of such functions come to the same or to null. -/
def Code.CallsClosed (setting : Setting) (name? : Option String) (span : Span) (body : List Node)
    (code other : Code) : Prop :=
  ∃ template closed, code.Makes template ∧ other.Makes { template with body := closed } ∧
    ∀ (s : Store) (f f' : FunctionInfo) (frame : FrameId) (module : NamespaceId) (rt : RuntimeId)
      (args : List Value), s.Faithful setting.registry →
      s.function? f.id = some (.script template frame module rt) →
      s.function? f'.id = some (.script { template with body := closed } frame module rt) →
      (Definition.KeepsOutcome name? span body →
        ∀ stack, Machine.SameOutcome setting ⟨.enter f args, stack, s⟩ ⟨.enter f' args, stack, s⟩) ∧
      (¬Definition.KeepsOutcome name? span body →
        Machine.Nulls setting ⟨.enter f args, [], s⟩ ⟨.enter f' args, [], s⟩)

theorem Compile.Yields.callsClosed {places places' : Compile.Places} {w w' v v' : Compile.Workspace}
    {name? : Option String} {params : List String} {body body' : List Node} {span other inner outer : Span}
    {code code' : Code} (setting : Setting) (same : SameTrees (Node.closing body) body')
    (alike : w.asking [] = v.asking [])
    (h : Compile.Yields
      (Compile.node places (Definition.node ⟨name?, params, .block inner body⟩ span)) w code w')
    (k : Compile.Yields
      (Compile.node places' (Definition.node ⟨name?, params, .block outer body'⟩ other)) v code' v') :
    code.CallsClosed setting name? inner body code' := by
  obtain ⟨template, closed, makes, makes', bodies, labelled⟩ := Compile.definition_closed same alike h k
  refine ⟨template, closed, makes, makes', ?_⟩
  intro s f f' frame module rt args faithful there there'
  obtain ⟨keeps, nulls⟩ := Machine.outcome_enter bodies faithful there there' args
  refine ⟨fun either => keeps (either.imp_right labelled.2), fun neither => ?_⟩
  rw [Definition.KeepsOutcome, not_or, Bool.not_eq_true, ← labelled, Option.not_isSome_iff_eq_none] at neither
  exact nulls neither.1 neither.2

/-- **A terminator after the last statement is taken by that statement, or is an empty statement, whose value
is null.**  Let a source be another one with a terminator more, before a word that closes a block or before the
end.

* If the one is parsed, then so is the other, into the tree in which that block is closed; if it fails before
  the word or after it, then so does the other one, for the same cause at the same token.
* If the terminator is taken, or stands at the end, then both are run or neither, and the outcome is the same if
  it is taken; else the other one comes to null where the one comes to a value, and fails where it fails.

Wherever a function or lambda is compiled whose body is a block, it is compiled just if it is with the block
closed, and calls of the two have the same outcome if the terminator is taken or the function is a lambda or has
a `return`; else a call of the closed one comes to null where the other one comes to a value. -/
theorem terminators_taken_or_null (setting : Setting) :
    (∀ (text other : String) (tokens others : List Token) (i : Nat) (word : Token),
      tokenize text = .ok tokens → tokenize other = .ok others → Terminated tokens others i word →
      (∀ tree, parse text = .ok tree → ∃ tree' body, parse other = .ok tree' ∧
        ClosedAt tokens i word body tree tree' ∧
        (endTakes false body = true ∨ word.kind = .endOfInput →
          ∀ (s : Store) (rt : RuntimeId) (module : NamespaceId), s.Faithful setting.registry →
            ((∃ c, Request.begin setting s (.source rt module text) = .running c) ↔
              ∃ d, Request.begin setting s (.source rt module other) = .running d) ∧
            ∀ c d, Request.begin setting s (.source rt module text) = .running c →
              Request.begin setting s (.source rt module other) = .running d →
              if endTakes false body then Machine.SameOutcome setting c d
              else Machine.Nulls setting c d)) ∧
      ∀ e j, parse text = .error (.parse e) → e.index? tokens = some j → j ≠ i →
        ∃ e', parse other = .error (.parse e') ∧ e'.cause = e.cause ∧
          e'.index? others = some (if j < i then j else j + 1)) ∧
    ∀ (places places' : Compile.Places) (w v : Compile.Workspace) (around : List Body)
      (name? : Option String) (params : List String) (body body' : List Node) (span other inner outer : Span),
      w.scopes.Stand around → w.asking [] = v.asking [] → SameTrees (closing body) body' →
      ((∃ code w', Compile.Yields
          (Compile.node places (Definition.node ⟨name?, params, .block inner body⟩ span)) w code w') ↔
        ∃ code v', Compile.Yields
          (Compile.node places' (Definition.node ⟨name?, params, .block outer body'⟩ other)) v code v') ∧
      ∀ code w' code' v',
        Compile.Yields
          (Compile.node places (Definition.node ⟨name?, params, .block inner body⟩ span)) w code w' →
        Compile.Yields
          (Compile.node places' (Definition.node ⟨name?, params, .block outer body'⟩ other)) v code' v' →
        code.CallsClosed setting name? inner body code' := by
  constructor
  · intro text other tokens others i word read read' terminated
    obtain ⟨trees, failures⟩ := parse_terminated read read' terminated
    refine ⟨fun tree parsed => ?_, failures⟩
    obtain ⟨tree', body, parsed', closed⟩ := trees tree parsed
    exact ⟨tree', body, parsed', closed, fun either s rt module faithful =>
      closed.outcome either parsed parsed' faithful rt module⟩
  · intro places places' w v around name? params body body' span other inner outer stands alike same
    refine ⟨Compile.definition_closed_iff stands same alike places places' name? params span other inner outer, ?_⟩
    exact fun code w' code' v' made made' => made.callsClosed setting same alike made'

/-- The tokens of a source, which is read without an error. -/
def wordsOf (text : String) : List Token := (tokenize text).toOption.getD []

/-- The tokens of which a conditional consists, and a terminator after it. -/
theorem terminated_conditional : tokenize "if true then 1 end" = .ok (wordsOf "if true then 1 end") ∧
    tokenize "if true then 1 end;" = .ok (wordsOf "if true then 1 end;") ∧
    Terminated (wordsOf "if true then 1 end") (wordsOf "if true then 1 end;") 5
      ⟨.endOfInput, "", ⟨18, 18⟩, ⟨1, 19⟩⟩ := by
  refine ⟨by decide +kernel, by decide +kernel, by decide +kernel, rfl, ?_, by decide +kernel⟩
  rintro j before place there
  obtain rfl : j = 4 := by omega
  have last : (wordsOf "if true then 1 end")[4]? = some ⟨.endWord, "end", ⟨15, 18⟩, ⟨1, 16⟩⟩ := by
    decide +kernel
  obtain rfl := Option.some.inj (last.symm.trans there)
  exact Kind.noConfusion

/-- A conditional with a terminator after it comes to null; and so does a call of a function whose body is a
block with a terminator after it. -/
theorem terminators_taken_or_null_block :
    (∃ c d,
      Request.begin ⟨.initial, #[], .empty⟩ .withModule (.source ⟨0⟩ ⟨1⟩ "if true then 1 end") = .running c ∧
      Request.begin ⟨.initial, #[], .empty⟩ .withModule (.source ⟨0⟩ ⟨1⟩ "if true then 1 end;") = .running d ∧
      Machine.Nulls ⟨.initial, #[], .empty⟩ c d) ∧
    ∃ (template : Template Code) (closed : Code) (s : Store) (f f' : FunctionInfo),
      s.function? f.id = some (.script template ⟨0⟩ ⟨1⟩ ⟨0⟩) ∧
      s.function? f'.id = some (.script { template with body := closed } ⟨0⟩ ⟨1⟩ ⟨0⟩) ∧
      Machine.Nulls ⟨.initial, #[], .empty⟩ ⟨.enter f [], [], s⟩ ⟨.enter f' [], [], s⟩ := by
  have faithful : Store.withModule.Faithful .initial :=
    ((Store.withNewRuntime_buildRuntime _ _ _ _ _).faithful Store.faithful_empty).of_runtimes rfl
  obtain ⟨sources, definitions⟩ := terminators_taken_or_null ⟨.initial, #[], .empty⟩
  constructor
  · obtain ⟨read, read', terminated⟩ := terminated_conditional
    have shape : (parse "if true then 1 end").toOption.any fun tree =>
        !endTakes false tree.children := by decide +kernel
    obtain ⟨tree, parsed, free⟩ := parsed_of_any shape
    obtain ⟨trees, -⟩ := sources _ _ _ _ _ _ read read' terminated
    obtain ⟨tree', body, -, closed, outcome⟩ := trees tree parsed
    obtain ⟨both, comes⟩ := outcome (.inr rfl) .withModule ⟨0⟩ ⟨1⟩ faithful
    obtain ⟨span, other, body', rfl, -, -⟩ := closed.whole rfl
    have free : (!endTakes false body) = true := free
    rw [Bool.not_eq_true'] at free
    have runs : (Request.begin ⟨.initial, #[], .empty⟩ .withModule
        (.source ⟨0⟩ ⟨1⟩ "if true then 1 end")).config?.isSome := by decide +kernel
    obtain ⟨c, begins⟩ : ∃ c, Request.begin ⟨.initial, #[], .empty⟩ .withModule
        (.source ⟨0⟩ ⟨1⟩ "if true then 1 end") = .running c := by
      cases begins : Request.begin ⟨.initial, #[], .empty⟩ .withModule
          (.source ⟨0⟩ ⟨1⟩ "if true then 1 end") with
      | running c => exact ⟨c, rfl⟩
      | done =>
        rw [begins] at runs
        cases runs
    obtain ⟨d, begins'⟩ := both.1 ⟨c, begins⟩
    have nulls := comes c d begins begins'
    rw [free] at nulls
    exact ⟨c, d, begins, begins', nulls⟩
  · let w : Compile.Workspace := ⟨0, ⟨0, 1⟩, [], [.module ⟨0, 0⟩]⟩
    have stands : w.scopes.Stand [] := rfl
    obtain ⟨-, closes⟩ := definitions Compile.nowhere Compile.nowhere w w [] (some "f") []
      [.block .none []] [.block .none [], .empty .none] .none .none .none .none stands rfl rfl
    have made : Compile.Yields (Compile.node Compile.nowhere
      (Definition.node ⟨some "f", [], .block .none [.block .none []]⟩ .none)) w _ _ := rfl
    have made' : Compile.Yields (Compile.node Compile.nowhere
      (Definition.node ⟨some "f", [], .block .none [.block .none [], .empty .none]⟩ .none)) w _ _ := rfl
    obtain ⟨template, closed, -, -, calls⟩ := closes _ _ _ _ made made'
    let first := Store.withModule.newFunction (.script template ⟨0⟩ ⟨1⟩ ⟨0⟩)
    let second := first.2.newFunction (.script { template with body := closed } ⟨0⟩ ⟨1⟩ ⟨0⟩)
    refine ⟨template, closed, second.2, first.1, second.1, rfl, rfl, ?_⟩
    refine (calls second.2 first.1 second.1 ⟨0⟩ ⟨1⟩ ⟨0⟩ [] (faithful.of_runtimes rfl) rfl rfl).2 ?_
    rintro (taken | unnamed | returns)
    · cases taken
    · cases unnamed
    · exact returns rfl

/-- What a source comes to in a module without names: a number, or null. -/
def answered? (text : String) : Option (Option Int64) := do
  let c ← Config.ofSource text 0
  let (answer, _) ← Machine.run ⟨.initial, #[], .empty⟩ 60 c
  match answer with
  | .ok (.int n) => some (some n)
  | .ok .null => some none
  | _ => none

/-- **A terminator after a block yields null**, at the end of a source as at the end of a body. -/
theorem null_after_block :
    answered? "if true then 1 end" = some (some 1) ∧ answered? "if true then 1 end;" = some none ∧
      answered? "function f() \x7b loop \x7b break(5) \x7d \x7d f()" = some (some 5) ∧
      answered? "function f() \x7b loop \x7b break(5) \x7d; \x7d f()" = some none := by
  decide +kernel

end HostScript
