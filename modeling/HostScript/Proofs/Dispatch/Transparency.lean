import HostScript.Proofs.Dispatch.Alike
import HostScript.Proofs.Dispatch.Throughout

/-!
# Proofs/Dispatch/Transparency — remembering changes nothing

`dispatchAfresh` performs a dynamic operation without rules: it chooses for the arguments at hand and
does what it has chosen.  `stepAfresh` is a machine that works so.  The machine with rules and the
one without go through alike states, as long as rules are faithful — and they always are.  Hence
`rules_transparent`: whole sessions answer the same and leave the same behind, whether choices are
remembered or not.
-/

namespace HostScript

open Store (Alike Agree)

/-! ## Operations -/

/-- A dynamic operation for which nothing is remembered. -/
def Store.dispatchAfresh (s : Store) (registry : Registry) (rt : RuntimeId) (module : NamespaceId)
    (signature : Signature) (args : List Value) : Outcome × Store :=
  let action := ((s.runtime rt).surface registry).choose signature args
  s.perform registry (s.runtime rt).globals module action signature args

variable {registry : Registry} {setting : Setting}

namespace Store

variable {s t : Store}

theorem alike_decide (s : Store) (registry : Registry) (rt : RuntimeId) (signature : Signature)
    (args : List Value) : Alike (s.decide registry rt signature args).2 s := by
  unfold decide
  dsimp only
  split
  · exact .refl s
  · dsimp only
    exact (Alike.refl s).changeRules rt _

/-- **A dynamic operation is what it would be afresh**, where rules are faithful. -/
theorem Faithful.agree_dispatch (faithful : s.Faithful registry) (h : Alike s t) (rt : RuntimeId)
    (module : NamespaceId) (signature : Signature) (args : List Value) :
    Agree (s.dispatch registry rt module signature args)
      (t.dispatchAfresh registry rt module signature args) := by
  have chosen := (faithful.decide rt signature args).1
  have alike := (s.alike_decide registry rt signature args).trans h
  unfold Store.dispatch dispatchAfresh
  dsimp only
  rw [chosen, alike.globals, h.surface]
  exact alike.heapOnly (heapOnly_perform registry _ module signature args _)

end Store

/-! ## Steps -/

/-- States of a machine that differ in no more than what has been decided. -/
structure Config.Alike (c d : Config) : Prop where
  control : c.control = d.control
  stack : c.stack = d.stack
  store : Store.Alike c.store d.store

namespace Machine

/-- One step of a machine that remembers no choices. -/
def stepAfresh (setting : Setting) (c : Config) : Config :=
  match c with
  | ⟨.dispatch env signature args, stack, s⟩ =>
    match s.dispatchAfresh setting.registry env.runtime env.module signature args with
    | (.reply reply, s) => ⟨.ofReply reply, stack, s⟩
    | (.dispatch signature args, s) => ⟨.dispatch env signature args, stack, s⟩
  | c => step setting c

variable {env : Env} {stack : List Pending} {s t : Store}

theorem alike_importPath (h : Alike s t) (path : List String) :
    (importPath setting env path stack s).Alike (importPath setting env path stack t) := by
  unfold importPath
  rw [h.globals, h.lookUpPath]
  split
  · exact ⟨rfl, rfl, h⟩
  next name _ =>
    dsimp only
    rw [h.siblingFile]
    split
    · obtain ⟨load, u, v, left, right, alike⟩ := (h.beginLoad env.runtime name).cases
      rw [left, right]
      dsimp only
      obtain ⟨result, u', v', left, right, alike⟩ :=
        (alike.startFile setting.files env.runtime load.module (t.siblingFile env name)).cases
      rw [left, right]
      cases result with
      | error e => exact ⟨rfl, rfl, alike⟩
      | ok control => exact ⟨rfl, rfl, alike⟩
    · exact ⟨rfl, rfl, h⟩
  · exact ⟨rfl, rfl, h⟩

theorem alike_eval (h : Alike s t) (code : Code) :
    (eval setting env code stack s).Alike (eval setting env code stack t) := by
  cases code with
  | read slot => exact ⟨congrArg Control.value (h.readSlot env.frame slot), rfl, h⟩
  | closure template =>
    obtain ⟨same, alike⟩ := h.newFunction (.script template env.frame env.module env.runtime)
    exact ⟨congrArg (Control.value ∘ Value.function) same, rfl, alike⟩
  | importAs => exact alike_importPath h _
  | dispatch _ _ operands => cases operands <;> exact ⟨rfl, rfl, h⟩
  | choose branches _ => cases branches <;> exact ⟨rfl, rfl, h⟩
  | sequence codes => cases codes <;> exact ⟨rfl, rfl, h⟩
  | _ => exact ⟨rfl, rfl, h⟩

theorem alike_resume (h : Alike s t) (v : Value) (waiting : Pending) :
    (resume v waiting stack s).Alike (resume v waiting stack t) := by
  cases waiting with
  | write frame slot => exact ⟨rfl, rfl, h.writeSlot frame slot v⟩
  | bind module name => exact ⟨rfl, rfl, h.bind module name v⟩
  | operands _ _ _ _ todo => cases todo <;> exact ⟨rfl, rfl, h⟩
  | sequence _ codes => cases codes <;> exact ⟨rfl, rfl, h⟩
  | test =>
    rw [resume_test, resume_test]
    exact ⟨rfl, rfl, h⟩
  | _ => exact ⟨rfl, rfl, h⟩

theorem alike_unwind (h : Alike s t) (e : Exit) (waiting : Pending) :
    (unwind e waiting stack s).Alike (unwind e waiting stack t) := by
  unfold unwind
  split
  case h_1 => split <;> exact ⟨rfl, rfl, h⟩
  case h_3 => split <;> exact ⟨rfl, rfl, h⟩
  case h_5 => exact ⟨rfl, rfl, h.undoLoad _⟩
  all_goals exact ⟨rfl, rfl, h⟩

theorem alike_enter (h : Alike s t) (function : FunctionInfo) (args : List Value) :
    (enter setting function args stack s).Alike (enter setting function args stack t) := by
  unfold enter Store.function?
  rw [h.functions]
  split
  · split
    next native _ =>
      obtain ⟨reply, u, v, left, right, alike⟩ := (h.onHeap (native args)).cases
      rw [left, right]
      exact ⟨rfl, rfl, alike⟩
    next => exact ⟨rfl, rfl, h⟩
  next template frame module rt _ =>
    rw [h.alive]
    split
    · obtain ⟨inner, u, v, left, right, alike⟩ := (h.newFrame template.layout args (some frame)).cases
      rw [left, right]
      exact ⟨rfl, rfl, alike⟩
    · exact ⟨rfl, rfl, h⟩
  · exact ⟨rfl, rfl, h⟩

/-- **Steps with and without rules keep states alike.** -/
theorem alike_step {c d : Config} (faithful : c.store.Faithful setting.registry) (h : c.Alike d) :
    (step setting c).Alike (stepAfresh setting d) := by
  obtain ⟨control, stack, s⟩ := c
  obtain ⟨_, _, t⟩ := d
  obtain ⟨rfl, rfl, alike⟩ := h
  cases control with
  | eval env code => exact alike_eval alike code
  | dispatch env signature args =>
    obtain ⟨outcome, u, v, left, right, after⟩ :=
      (faithful.agree_dispatch alike env.runtime env.module signature args).cases
    unfold step stepAfresh
    dsimp only
    rw [left, right]
    cases outcome with
    | reply r => exact ⟨rfl, rfl, after⟩
    | dispatch signature args => exact ⟨rfl, rfl, after⟩
  | enter function args => exact alike_enter alike function args
  | value v =>
    cases stack with
    | nil => exact ⟨rfl, rfl, alike⟩
    | cons waiting stack => exact alike_resume alike v waiting
  | exit e =>
    cases stack with
    | nil => exact ⟨rfl, rfl, alike⟩
    | cons waiting stack => exact alike_unwind alike e waiting

theorem answer?_of_alike {c d : Config} (h : c.Alike d) : answer? c = answer? d := by
  obtain ⟨control, stack, s⟩ := c
  obtain ⟨_, _, t⟩ := d
  obtain ⟨rfl, rfl, -⟩ := h
  unfold answer?
  cases control <;> cases stack <;> rfl

/-- **Runs with and without rules agree.** -/
theorem agree_run {c d : Config} (faithful : c.store.Faithful setting.registry) (h : c.Alike d)
    (fuel : Nat) :
    Option.Rel Agree (runBy (step setting) fuel c) (runBy (stepAfresh setting) fuel d) := by
  induction fuel generalizing c d with
  | zero => exact .none
  | succ fuel ih =>
    unfold runBy
    rw [answer?_of_alike h]
    cases answer? d with
    | some answer => exact .some ⟨rfl, h.store⟩
    | none => exact ih (faithful_step faithful) (alike_step faithful h)

end Machine

/-! ## Requests -/

namespace Store.Alike

variable {s t : Store}

theorem publish (h : Alike s t) (rt : RuntimeId) (info : TypeInfo) :
    Alike (s.publish rt info) (t.publish rt info) := by
  unfold Store.publish
  dsimp only
  let list := fun runtime : Runtime =>
    if info.primitive?.isSome && !(runtime.bound.any (·.id = info.id)) then
      { runtime with bound := runtime.bound ++ [info] }
    else runtime
  have listed : Alike (s.changeRuntime rt list) (t.changeRuntime rt list) :=
    h.changeRuntime rt (g := list) fun runtime => by
      dsimp only [list]
      unfold Runtime.undecided
      split <;> rfl
  obtain ⟨space, u, v, left, right, alike⟩ :=
    (listed.onHeap (·.descend ((t.changeRuntime rt list).runtime rt).globals
      (Text.dottedParts info.fullName).dropLast)).cases
  rw [listed.globals, left, right]
  cases space with
  | none => exact alike
  | some space => exact alike.bind space info.name (.type info)

theorem binds (h : Alike s t) (space : NamespaceId) (v : Value) (methods : List Method) :
    Alike (methods.foldl (fun s m => s.bind space m.name v) s)
      (methods.foldl (fun s m => s.bind space m.name v) t) := by
  induction methods generalizing s t with
  | nil => exact h
  | cons m rest ih => exact ih (h.bind space m.name v)

theorem inject (h : Alike s t) (registry : Registry) (rt : RuntimeId) (object : HostObject) :
    Alike (s.inject registry rt object) (t.inject registry rt object) := by
  unfold Store.inject
  dsimp only
  refine changeRuntime ?_ rt (g := fun runtime =>
    { runtime with instances := runtime.instances ++ [object] }) fun _ => rfl
  obtain ⟨space, u, v, left, right, alike⟩ :=
    (h.onHeap (·.child (t.runtime rt).globals object.type.name)).cases
  rw [h.globals, left, right]
  cases space with
  | none => exact alike
  | some space => exact alike.binds space (.object object) _

theorem buildRuntime (h : Alike s t) (registry : Registry) (libraries : List (List TypeInfo))
    (instances : List HostObject) (extension : String) :
    Alike (s.buildRuntime registry libraries instances extension).2
      (t.buildRuntime registry libraries instances extension).2 := by
  have publishes : ∀ (infos : List TypeInfo) (rt : RuntimeId) {s t : Store}, Alike s t →
      Alike (infos.foldl (fun s info => s.publish rt info) s)
        (infos.foldl (fun s info => s.publish rt info) t) := by
    intro infos rt
    induction infos with
    | nil => exact fun h => h
    | cons info rest ih => exact fun h => ih (h.publish rt info)
  have injects : ∀ (objects : List HostObject) (rt : RuntimeId) {s t : Store}, Alike s t →
      Alike (objects.foldl (fun s o => s.inject registry rt o) s)
        (objects.foldl (fun s o => s.inject registry rt o) t) := by
    intro objects rt
    induction objects with
    | nil => exact fun h => h
    | cons object rest ih => exact fun h => ih (h.inject registry rt object)
  unfold Store.buildRuntime
  obtain ⟨globals, u, v, left, right, alike⟩ := (h.onHeap (·.newSpace)).cases
  unfold Store.newSpace
  rw [left, right]
  dsimp only
  obtain ⟨rt, u', v', left, right, alike⟩ := (alike.newRuntime
    ⟨globals, [], [], String.ofList (extension.toList.dropWhile (· == '.')), .empty, true⟩).cases
  rw [left, right]
  exact injects _ _ (publishes _ _ alike)

end Store.Alike

/-- Beginnings that differ in no more than what has been decided. -/
def Begun.Alike : Begun → Begun → Prop
  | done answer s, done other t => Agree (answer, s) (other, t)
  | running c, running d => c.Alike d
  | _, _ => False

theorem Request.alike_begin (setting : Setting) {s t : Store} (h : Alike s t) (request : Request) :
    (request.begin setting s).Alike (request.begin setting t) := by
  cases request with
  | build libraries instances extension =>
    exact ⟨rfl, h.buildRuntime setting.registry libraries instances extension⟩
  | drop rt =>
    exact ⟨rfl, h.changeRuntime rt (g := fun runtime => { runtime with alive := false }) fun _ => rfl⟩
  | change f => exact ⟨rfl, h.changeHeap f⟩
  | offer name arity index =>
    obtain ⟨same, alike⟩ := h.newFunction (.native name arity index)
    exact ⟨congrArg (Except.ok ∘ Value.function) same, alike⟩
  | source rt module text =>
    obtain ⟨result, u, v, left, right, alike⟩ := (h.prepare rt text).cases
    unfold begin
    dsimp only
    rw [left, right]
    cases result with
    | error e => exact ⟨rfl, alike⟩
    | ok program =>
      obtain ⟨same, alike⟩ := alike.startProgram rt module program
      exact ⟨same, rfl, alike⟩
  | fileIn rt module path =>
    obtain ⟨result, u, v, left, right, alike⟩ := (h.startFile setting.files rt module path).cases
    unfold begin
    dsimp only
    rw [left, right]
    cases result with
    | error e => exact ⟨rfl, alike⟩
    | ok control => exact ⟨rfl, rfl, alike⟩
  | fileAs rt path name =>
    obtain ⟨load, u, v, left, right, alike⟩ := (h.beginLoad rt name).cases
    unfold begin
    dsimp only
    rw [left, right]
    obtain ⟨result, u', v', left, right, alike⟩ :=
      (alike.startFile setting.files rt load.module path).cases
    dsimp only
    rw [left, right]
    cases result with
    | error e => exact ⟨rfl, alike.undoLoad load⟩
    | ok control => exact ⟨rfl, rfl, alike⟩
  | call function args => exact ⟨rfl, rfl, h⟩
  | effect e =>
    obtain ⟨reply, u, v, left, right, alike⟩ := (h.onHeap e).cases
    unfold begin
    dsimp only
    rw [left, right]
    exact ⟨rfl, rfl, alike⟩

/-! ## Sessions -/

namespace Turn

variable {s t : Store}

theorem agree_play (turn : Turn) (faithful : s.Faithful turn.setting.registry) (h : Alike s t) :
    Option.Rel Agree (turn.play Machine.step s) (turn.play Machine.stepAfresh t) := by
  have begins := turn.request.alike_begin turn.setting h
  have kept := turn.request.faithful_begin faithful
  unfold play
  revert begins kept
  cases turn.request.begin turn.setting s with
  | done answer after =>
    cases turn.request.begin turn.setting t with
    | done other _ => exact fun agree _ => .some agree
    | running _ => exact fun never _ => never.elim
  | running c =>
    cases turn.request.begin turn.setting t with
    | done _ _ => exact fun never _ => never.elim
    | running d =>
      intro alike kept
      have runs := Machine.agree_run kept alike turn.fuel
      dsimp only
      revert runs
      cases Machine.runBy (Machine.step turn.setting) turn.fuel c <;>
        cases Machine.runBy (Machine.stepAfresh turn.setting) turn.fuel d
      · exact fun _ => .none
      · exact fun never => nomatch never
      · exact fun never => nomatch never
      · rintro ⟨⟨same, alike⟩⟩
        exact .some ⟨congrArg (Except.mapError ScriptError.eval) same, alike⟩

/-- **Sessions with and without rules agree**, request by request. -/
theorem agree_playAll (turns : List Turn) (shared : ∀ turn ∈ turns, turn.setting.registry = registry)
    (reached : Reached registry s) (h : Alike s t) :
    Option.Rel Agree (playAll Machine.step turns s) (playAll Machine.stepAfresh turns t) := by
  induction turns generalizing s t with
  | nil => exact .some ⟨rfl, h⟩
  | cons turn rest ih =>
    have same := shared turn List.mem_cons_self
    have faithful := (Invariant.faithful registry).reached reached
    have first := turn.agree_play (same.symm ▸ faithful) h
    unfold playAll
    revert first
    cases played : turn.play Machine.step s with
    | none =>
      cases turn.play Machine.stepAfresh t with
      | none => exact fun _ => .none
      | some _ => exact fun never => nomatch never
    | some p =>
      cases turn.play Machine.stepAfresh t with
      | none => exact fun never => nomatch never
      | some q =>
        rintro ⟨⟨answers, alike⟩⟩
        have next := Reached.turn reached same played
        have others := ih (fun turn mem => shared turn (List.mem_cons_of_mem _ mem)) next alike
        dsimp only [Option.bind_some]
        revert others
        cases playAll Machine.step rest p.2 <;> cases playAll Machine.stepAfresh rest q.2
        · exact fun _ => .none
        · exact fun never => nomatch never
        · exact fun never => nomatch never
        · rintro ⟨⟨replies, alike⟩⟩
          exact .some ⟨List.cons_eq_cons.2 ⟨answers, replies⟩, alike⟩

end Turn

/-- **Remembering choices changes nothing.**  A session answers the same, and leaves the same behind
but for the rules, whether its machines remember choices or not.  At every moment of a machine:

* every branch of every rule names members that are there, and holds what is chosen for any arguments
  of its shapes, be it a failure or anything else;
* every dynamic operation has the outcome and the effects that it has afresh;
* it has those that it has at any other moment when all else is alike, whatever was decided before
  either of them;
* and so has all that the machine goes on to do. -/
theorem rules_transparent (registry : Registry) :
    (∀ turns : List Turn, (∀ turn ∈ turns, turn.setting.registry = registry) →
      Option.Rel Agree (Turn.playAll Machine.step turns .empty)
        (Turn.playAll Machine.stepAfresh turns .empty)) ∧
    ∀ setting c, Moment registry setting c →
      (∀ rt signature, ∀ branch ∈ (c.store.runtime rt).rules.branches signature,
        branch.action.InRange registry ∧
          ∀ args : List Value, args.map Value.shape = branch.guard →
            branch.action = ((c.store.runtime rt).surface registry).choose signature args) ∧
      (∀ rt module signature args,
        Agree (c.store.dispatch registry rt module signature args)
          (c.store.dispatchAfresh registry rt module signature args)) ∧
      (∀ other d, Moment registry other d → Alike c.store d.store → ∀ rt module signature args,
        Agree (c.store.dispatch registry rt module signature args)
          (d.store.dispatch registry rt module signature args)) ∧
      ∀ fuel, Option.Rel Agree (Machine.run setting fuel c)
        (Machine.runBy (Machine.stepAfresh setting) fuel c) := by
  refine ⟨fun turns shared => Turn.agree_playAll turns shared .start (.refl _), ?_⟩
  intro setting c moment
  have faithful := (Invariant.faithful registry).moment moment
  refine ⟨?_, ?_, ?_, ?_⟩
  · intro rt signature branch mem
    exact ⟨(faithful rt).inRange mem, faithful rt signature branch mem⟩
  · intro rt module signature args
    exact faithful.agree_dispatch (.refl _) rt module signature args
  · intro other d moment alike rt module signature args
    have there := (Invariant.faithful registry).moment moment
    obtain ⟨same, here⟩ := faithful.agree_dispatch alike rt module signature args
    obtain ⟨again, back⟩ := there.agree_dispatch (.refl _) rt module signature args
    exact ⟨same.trans again.symm, here.trans back.symm⟩
  · intro fuel
    rw [← Machine.runBy_step]
    refine Machine.agree_run ?_ ⟨rfl, rfl, .refl _⟩ fuel
    rw [moment.registry_eq]
    exact faithful

/-- A runtime, a module, and three sums in it at one rule, the second of which fails. -/
def Turn.sums : List Turn :=
  let ask (request : Request) : Turn := ⟨⟨.initial, #[], .empty⟩, 20, request⟩
  let sum (text : String) := ask (.source ⟨0⟩ ⟨1⟩ text)
  [ask (.build [] [] defaultExtension), ask (.change fun h => h.newSpace.2), sum "1 + 2",
    sum "true + 2", sum "3 + 4"]

theorem rules_transparent_sums :
    ∃ answers s, Turn.playAll Machine.step Turn.sums .empty = some (answers, s) ∧
      Option.Rel Agree (Turn.playAll Machine.step Turn.sums .empty)
        (Turn.playAll Machine.stepAfresh Turn.sums .empty) ∧
      ((s.runtime ⟨0⟩).rules.branches (.binary .add)).length = 2 ∧
      ∀ branch ∈ (s.runtime ⟨0⟩).rules.branches (.binary .add),
        branch.action.InRange .initial := by
  have shared : ∀ turn ∈ Turn.sums, turn.setting.registry = .initial := by simp [Turn.sums]
  have ends : (Turn.playAll Machine.step Turn.sums .empty).any fun played =>
      ((played.2.runtime ⟨0⟩).rules.branches (.binary .add)).length = 2 := by decide +kernel
  obtain ⟨⟨answers, s⟩, played, two⟩ := (Option.any_eq_true _ _).1 ends
  have reached : Reached .initial s := Turn.reached_playAll shared .start played
  have begins : Request.begin ⟨.initial, #[], .empty⟩ s (.call default []) =
      .running ⟨.enter default [], [], s⟩ := rfl
  have moment := Moment.begun reached rfl begins
  obtain ⟨sessions, moments⟩ := rules_transparent .initial
  refine ⟨answers, s, played, sessions Turn.sums shared, of_decide_eq_true two, ?_⟩
  intro branch mem
  exact ((moments _ _ moment).1 ⟨0⟩ (.binary .add) branch mem).1

end HostScript
