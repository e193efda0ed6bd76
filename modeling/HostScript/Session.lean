import HostScript.Execute
import Mathlib.Logic.Function.Iterate

/-!
# Session — what a host does with its runtimes, one thing after another

A host builds runtimes, works on what it shares with scripts, and has sources, files and functions
run.  Each of these is a `Request`; it is done at once or a machine runs for it.  A session is a list
of requests, each in a setting of its own, for a host may write files and add functions meanwhile.

`Reached` and `Moment` are the stores between requests and the states of machines that occur in
sessions over one registry; an `Invariant` holds of all of them.
-/

namespace HostScript

/-- What a host does next. -/
inductive Request where
  /-- Builds a runtime. -/
  | build (libraries : List (List TypeInfo)) (instances : List HostObject) (extension : String)
  /-- Lets go of a runtime. -/
  | drop (rt : RuntimeId)
  /-- Works on the heap. -/
  | change (f : Heap → Heap)
  /-- Offers one of its functions, by its place among them. -/
  | offer (name : String) (arity index : Nat)
  /-- Runs a source in a module. -/
  | source (rt : RuntimeId) (module : NamespaceId) (text : String)
  /-- Runs a file in a module. -/
  | fileIn (rt : RuntimeId) (module : NamespaceId) (path : String)
  /-- Runs a file as a module of its own. -/
  | fileAs (rt : RuntimeId) (path name : String)
  /-- Calls a function with any number of arguments. -/
  | call (function : FunctionInfo) (args : List Value)
  /-- Does what a host member does. -/
  | effect (e : Effect)

/-- How a request begins: it is done at once, or a machine runs for it. -/
inductive Begun where
  | done (answer : Except ScriptError Value) (s : Store)
  | running (c : Config)

/-- Begins a request. -/
def Request.begin (setting : Setting) (s : Store) : Request → Begun
  | build libraries instances extension =>
    .done (.ok .null) (s.buildRuntime setting.registry libraries instances extension).2
  | drop rt => .done (.ok .null) (s.changeRuntime rt fun runtime => { runtime with alive := false })
  | change f => .done (.ok .null) (s.changeHeap f)
  | offer name arity index =>
    let (function, s) := s.newFunction (.native name arity index)
    .done (.ok (.function function)) s
  | source rt module text =>
    match s.prepare rt text with
    | (.ok program, s) =>
      let (control, s) := s.startProgram rt module program
      .running ⟨control, [], s⟩
    | (.error e, s) => .done (.error e) s
  | fileIn rt module path =>
    match s.startFile setting.files rt module path with
    | (.ok control, s) => .running ⟨control, [], s⟩
    | (.error e, s) => .done (.error e) s
  | fileAs rt path name =>
    let (load, s) := s.beginLoad rt name
    match s.startFile setting.files rt load.module path with
    | (.ok control, s) => .running ⟨control, [.load load], s⟩
    | (.error e, s) => .done (.error e) (s.undoLoad load)
  | call function args => .running ⟨.enter function args, [], s⟩
  | effect e =>
    let (reply, s) := s.onHeap e
    .running ⟨.ofReply reply, [], s⟩

/-! ## Runs -/

namespace Machine

/-- Goes on by a rule until there is an answer, at most the given number of times. -/
def runBy (next : Config → Config) : Nat → Config → Option (Except EvalError Value × Store)
  | 0, _ => none
  | fuel + 1, c =>
    match answer? c with
    | some answer => some (answer, c.store)
    | none => runBy next fuel (next c)

theorem runBy_step (setting : Setting) (fuel : Nat) (c : Config) :
    runBy (step setting) fuel c = run setting fuel c := by
  induction fuel generalizing c with
  | zero => rfl
  | succ fuel ih =>
    rw [runBy, run]
    cases answer? c with
    | some answer => rfl
    | none => exact ih _

/-- What holds of a state and is kept by the rule holds where the run ends. -/
theorem runBy_induct {next : Config → Config} {P : Config → Prop} (step : ∀ c, P c → P (next c))
    {fuel : Nat} {c : Config} {answer : Except EvalError Value} {s : Store} (start : P c)
    (h : runBy next fuel c = some (answer, s)) : ∃ c, P c ∧ answer? c = some answer ∧ c.store = s := by
  induction fuel generalizing c with
  | zero => cases h
  | succ fuel ih =>
    rw [runBy] at h
    cases found : answer? c with
    | some reply =>
      rw [found] at h
      obtain ⟨rfl, rfl⟩ := Prod.mk.inj (Option.some.inj h)
      exact ⟨c, start, found, rfl⟩
    | none =>
      rw [found] at h
      exact ih (step c start) h

end Machine

/-- A request, the setting it is made in, and the number of machine steps it may take. -/
structure Turn where
  setting : Setting
  fuel : Nat
  request : Request

namespace Turn

/-- What a request answers, with machines that go on by a rule. -/
def play (next : Setting → Config → Config) (turn : Turn) (s : Store) :
    Option (Except ScriptError Value × Store) :=
  match turn.request.begin turn.setting s with
  | .done answer s => some (answer, s)
  | .running c =>
    (Machine.runBy (next turn.setting) turn.fuel c).map fun (answer, s) => (answer.mapError .eval, s)

/-- What the requests of a session answer, one after another. -/
def playAll (next : Setting → Config → Config) :
    List Turn → Store → Option (List (Except ScriptError Value) × Store)
  | [], s => some ([], s)
  | turn :: rest, s =>
    (turn.play next s).bind fun (answer, s) =>
      (playAll next rest s).map fun (answers, s) => (answer :: answers, s)

/-! ## Requests are what hosts ask of a runtime -/

variable (setting : Setting) (fuel : Nat) (rt : RuntimeId) (module : NamespaceId) (s : Store)

theorem play_source (text : String) :
    play Machine.step ⟨setting, fuel, .source rt module text⟩ s =
      Machine.execute setting fuel rt module text s := by
  unfold play Request.begin Machine.execute Machine.finish
  dsimp only
  cases s.prepare rt text with
  | mk result s =>
    cases result with
    | error e => rfl
    | ok program => exact congrArg (Option.map _) (Machine.runBy_step _ _ _)

theorem play_fileIn (path : String) :
    play Machine.step ⟨setting, fuel, .fileIn rt module path⟩ s =
      Machine.executeFileIn setting fuel rt module path s := by
  unfold play Request.begin Machine.executeFileIn Machine.finish
  dsimp only
  cases s.startFile setting.files rt module path with
  | mk result s =>
    cases result with
    | error e => rfl
    | ok control => exact congrArg (Option.map _) (Machine.runBy_step _ _ _)

theorem play_fileAs (path name : String) :
    play Machine.step ⟨setting, fuel, .fileAs rt path name⟩ s =
      Machine.executeFileAs setting fuel rt path name s := by
  unfold play Request.begin Machine.executeFileAs Machine.finish
  dsimp only
  cases (s.beginLoad rt name).2.startFile setting.files rt (s.beginLoad rt name).1.module path with
  | mk result s =>
    cases result with
    | error e => rfl
    | ok control => exact congrArg (Option.map _) (Machine.runBy_step _ _ _)

theorem play_call (function : FunctionInfo) (args : List Value) :
    play Machine.step ⟨setting, fuel, .call function args⟩ s =
      (Machine.callFunction setting fuel function args s).map
        fun (answer, s) => (answer.mapError .eval, s) :=
  congrArg (Option.map _) (Machine.runBy_step _ _ _)

theorem play_effect (e : Effect) :
    play Machine.step ⟨setting, fuel, .effect e⟩ s =
      (Machine.runEffect setting fuel e s).map
        fun (answer, s) => (answer.mapError .eval, s) :=
  congrArg (Option.map _) (Machine.runBy_step _ _ _)

end Turn

/-! ## Reached states -/

/-- The stores between the requests of sessions over a registry. -/
inductive Reached (registry : Registry) : Store → Prop where
  | start : Reached registry .empty
  | turn {turn : Turn} {s after : Store} {answer : Except ScriptError Value} :
    Reached registry s → turn.setting.registry = registry →
      turn.play Machine.step s = some (answer, after) → Reached registry after

/-- The states of the machines that run for requests of sessions over a registry. -/
inductive Moment (registry : Registry) : Setting → Config → Prop where
  | begun {setting : Setting} {s : Store} {request : Request} {c : Config} :
    Reached registry s → setting.registry = registry → request.begin setting s = .running c →
      Moment registry setting c
  | step {setting : Setting} {c : Config} :
    Moment registry setting c → Moment registry setting (Machine.step setting c)

theorem Moment.registry_eq {registry : Registry} {setting : Setting} {c : Config}
    (h : Moment registry setting c) : setting.registry = registry := by
  induction h with
  | begun _ same _ => exact same
  | step _ ih => exact ih

theorem Moment.iterate {registry : Registry} {setting : Setting} {c : Config}
    (h : Moment registry setting c) (n : Nat) :
    Moment registry setting ((Machine.step setting)^[n] c) := by
  induction n with
  | zero => exact h
  | succ n ih =>
    rw [Function.iterate_succ_apply']
    exact ih.step

/-- What a session leaves behind is reached. -/
theorem Turn.reached_playAll {registry : Registry} {turns : List Turn} {s t : Store}
    (shared : ∀ turn ∈ turns, turn.setting.registry = registry)
    (reached : Reached registry s) {answers : List (Except ScriptError Value)}
    (h : playAll Machine.step turns s = some (answers, t)) : Reached registry t := by
  induction turns generalizing s answers with
  | nil =>
    obtain ⟨-, rfl⟩ := Prod.mk.inj (Option.some.inj h)
    exact reached
  | cons turn rest ih =>
    obtain ⟨⟨answer, after⟩, first, others⟩ := Option.bind_eq_some_iff.1 h
    obtain ⟨⟨replies, last⟩, played, both⟩ := Option.map_eq_some_iff.1 others
    obtain ⟨-, rfl⟩ := Prod.mk.inj both
    have next := Reached.turn reached (shared turn List.mem_cons_self) first
    exact ih (fun turn mem => shared turn (List.mem_cons_of_mem _ mem)) next played

/-- The state of the machine of a request after a session and a number of steps, if one runs for it. -/
def Turn.stateAfter (turns : List Turn) (setting : Setting) (request : Request) (n : Nat) :
    Option Config :=
  (playAll Machine.step turns .empty).bind fun played =>
    match request.begin setting played.2 with
    | .done _ _ => none
    | .running c => some ((Machine.step setting)^[n] c)

theorem Turn.moment_stateAfter {registry : Registry} {turns : List Turn} {setting : Setting}
    {request : Request} {n : Nat} {c : Config}
    (shared : ∀ turn ∈ turns, turn.setting.registry = registry) (same : setting.registry = registry)
    (h : stateAfter turns setting request n = some c) : Moment registry setting c := by
  obtain ⟨⟨answers, s⟩, played, found⟩ := Option.bind_eq_some_iff.1 h
  have reached := reached_playAll shared .start played
  dsimp only at found
  split at found
  next => cases found
  next begins =>
    obtain rfl := Option.some.inj found
    exact (Moment.begun reached same begins).iterate n

/-- A session that builds a runtime and makes a module for it. -/
def Turn.opening : List Turn :=
  let ask (request : Request) : Turn := ⟨⟨.initial, #[], .empty⟩, 0, request⟩
  [ask (.build [] [] defaultExtension), ask (.change fun h => h.newSpace.2)]

/-- The state of a machine that runs a source in that module, after a number of steps. -/
def Config.ofSource (text : String) (n : Nat) : Option Config :=
  Turn.stateAfter Turn.opening ⟨.initial, #[], .empty⟩ (.source ⟨0⟩ ⟨1⟩ text) n

theorem Turn.registry_opening : ∀ turn ∈ opening, turn.setting.registry = .initial := by
  intro turn mem
  simp only [opening, List.mem_cons, List.not_mem_nil, or_false] at mem
  rcases mem with rfl | rfl <;> rfl

theorem Config.moment_ofSource {text : String} {n : Nat} {c : Config}
    (h : ofSource text n = some c) : Moment .initial ⟨.initial, #[], .empty⟩ c :=
  Turn.moment_stateAfter Turn.registry_opening rfl h

/-- A source that runs in that module has been begun by a request. -/
theorem Config.begin_of_ofSource {text : String} {c : Config} (h : ofSource text 0 = some c) :
    ∃ s, Reached .initial s ∧
      Request.begin ⟨.initial, #[], .empty⟩ s (.source ⟨0⟩ ⟨1⟩ text) = .running c := by
  unfold ofSource Turn.stateAfter at h
  obtain ⟨⟨answers, s⟩, played, found⟩ := Option.bind_eq_some_iff.1 h
  refine ⟨s, Turn.reached_playAll Turn.registry_opening .start played, ?_⟩
  dsimp only at found
  split at found
  next => cases found
  next begins =>
    obtain rfl := Option.some.inj found
    exact begins

/-! ## Invariants of sessions -/

/-- A property of stores and one of the states of machines that requests and steps keep: the machines
that requests begin have the one, and the stores that machines and other requests leave behind have
the other. -/
structure Invariant (registry : Registry) (I : Store → Prop) (P : Setting → Config → Prop) :
    Prop where
  start : I .empty
  begun (setting : Setting) (s : Store) (request : Request) : setting.registry = registry → I s →
    match request.begin setting s with
    | .done _ after => I after
    | .running c => P setting c
  step (setting : Setting) (c : Config) : setting.registry = registry → P setting c →
    P setting (Machine.step setting c)
  finish (setting : Setting) (c : Config) (answer : Except EvalError Value) : P setting c →
    Machine.answer? c = some answer → I c.store

namespace Invariant

variable {registry : Registry} {I : Store → Prop} {P : Setting → Config → Prop}

/-- An invariant holds between requests. -/
theorem reached (inv : Invariant registry I P) {s : Store} (h : Reached registry s) : I s := by
  induction h with
  | start => exact inv.start
  | @turn turn s after answer _ same played ih =>
    have kept := inv.begun turn.setting s turn.request same ih
    unfold Turn.play at played
    split at played
    next begins =>
      rw [begins] at kept
      obtain ⟨-, rfl⟩ := Prod.mk.inj (Option.some.inj played)
      exact kept
    next c begins =>
      rw [begins] at kept
      obtain ⟨⟨reply, t⟩, ran, answered⟩ := Option.map_eq_some_iff.1 played
      obtain ⟨-, rfl⟩ := Prod.mk.inj answered
      obtain ⟨last, holds, done, rfl⟩ :=
        Machine.runBy_induct (fun c => inv.step turn.setting c same) kept ran
      exact inv.finish turn.setting last reply holds done

/-- **An invariant holds at every moment** of every machine that runs in a session. -/
theorem moment (inv : Invariant registry I P) {setting : Setting} {c : Config}
    (h : Moment registry setting c) : P setting c := by
  induction h with
  | @begun s request c before same begins =>
    have kept := inv.begun _ s request same (inv.reached before)
    rw [begins] at kept
    exact kept
  | step before ih => exact inv.step _ _ before.registry_eq ih

end Invariant

end HostScript
