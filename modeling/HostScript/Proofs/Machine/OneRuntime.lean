import HostScript.Proofs.Dispatch.Transparency
import HostScript.Proofs.Machine.Entries
import HostScript.Proofs.Machine.Leads

/-!
# Proofs/Machine/OneRuntime — what concerns one runtime

Code is evaluated for the runtime of its environment.  Two stores that differ in other runtimes at most are
the same for it (`Store.AgreeFor`): what code does there is the same, and the stores stay so.  And no other
runtime is changed.  So names, rules and imports are resolved against one runtime alone
(`Machine.resolves_step`).
-/

namespace HostScript

namespace Store

/-! ## Stores that one runtime cannot tell apart -/

/-- **Stores that a runtime cannot tell apart**: they differ in other runtimes at most. -/
structure AgreeFor (rt : RuntimeId) (s t : Store) : Prop where
  heap : t.toHeap = s.toHeap
  frames : t.frames = s.frames
  functions : t.functions = s.functions
  runtime : t.runtimes[rt.index]? = s.runtimes[rt.index]?

variable {rt : RuntimeId} {s t : Store}

/-- Other runtimes make no difference to what is read of the heap and of activations. -/
theorem lookUpPath_runtimes (runtimes : Array Runtime) (id : NamespaceId) (path : List String) :
    lookUpPath { s with runtimes } id path = s.lookUpPath id path := by
  induction path generalizing id with
  | nil => rfl
  | cons name rest ih =>
    cases rest with
    | nil => rfl
    | cons next rest =>
      unfold lookUpPath
      dsimp only
      split
      · exact ih _
      · rfl

theorem outer?_runtimes (runtimes : Array Runtime) (id : FrameId) (depth : Nat) :
    outer? { s with runtimes } id depth = s.outer? id depth := by
  induction depth generalizing id with
  | zero => rfl
  | succ depth ih =>
    unfold outer?
    exact congrArg (Option.bind _) (funext fun frame => congrArg (Option.bind _) (funext ih))

namespace AgreeFor

/-- One of two such stores is the other with runtimes of its own. -/
theorem eq_with (h : s.AgreeFor rt t) : t = { s with runtimes := t.runtimes } := by
  obtain ⟨heap, frames, functions, runtimes⟩ := s
  obtain ⟨_, _, _, _⟩ := t
  obtain ⟨rfl, rfl, rfl, -⟩ := h
  rfl

theorem read (h : s.AgreeFor rt t) : t.runtime rt = s.runtime rt := by
  unfold Store.runtime
  rw [h.runtime]

/-- Work on the heap alone is the same. -/
theorem heapOnly {α : Type} {f : Store → α × Store} (only : HeapOnly f) (h : s.AgreeFor rt t) :
    (f t).1 = (f s).1 ∧ (f s).2.AgreeFor rt (f t).2 := by
  have moved := only.replaced s s.frames s.functions t.runtimes
  have other : t = { s with frames := s.frames, functions := s.functions, runtimes := t.runtimes } :=
    h.eq_with
  rw [← other] at moved
  rw [moved]
  exact ⟨rfl, rfl, (only.frames s).symm, (only.functions s).symm,
    h.runtime.trans (congrArg (·[rt.index]?) (only.runtimes s).symm)⟩

/-- The runtime itself may be changed in both. -/
theorem changeRuntime (h : s.AgreeFor rt t) (f : Runtime → Runtime) :
    (s.changeRuntime rt f).AgreeFor rt (t.changeRuntime rt f) := by
  refine ⟨h.heap, h.frames, h.functions, ?_⟩
  unfold Store.changeRuntime
  rw [Array.getElem?_modify, Array.getElem?_modify, h.runtime]

theorem bind (h : s.AgreeFor rt t) (id : NamespaceId) (name : String) (v : Value) :
    (s.bind id name v).AgreeFor rt (t.bind id name v) :=
  ⟨congrArg (·.bind id name v) h.heap, h.frames, h.functions, h.runtime⟩

/-! ## Rules -/

variable (registry : Registry) (signature : Signature) (args : List Value)

theorem decide (h : s.AgreeFor rt t) :
    (t.decide registry rt signature args).1 = (s.decide registry rt signature args).1 ∧
      (s.decide registry rt signature args).2.AgreeFor rt (t.decide registry rt signature args).2 := by
  unfold Store.decide
  rw [h.read]
  dsimp only
  split
  · exact ⟨rfl, h⟩
  · exact ⟨rfl, h.changeRuntime _⟩

/-- **A dynamic operation** is the same. -/
theorem dispatch (h : s.AgreeFor rt t) (module : NamespaceId) :
    (t.dispatch registry rt module signature args).1 = (s.dispatch registry rt module signature args).1 ∧
      (s.dispatch registry rt module signature args).2.AgreeFor rt
        (t.dispatch registry rt module signature args).2 := by
  obtain ⟨same, agree⟩ := h.decide registry signature args
  unfold Store.dispatch
  dsimp only
  rw [same, agree.read]
  exact agree.heapOnly (heapOnly_perform registry _ module signature args _)

/-! ## Programs and imports -/

theorem prepare (h : s.AgreeFor rt t) (text : String) :
    (t.prepare rt text).1 = (s.prepare rt text).1 ∧
      (s.prepare rt text).2.AgreeFor rt (t.prepare rt text).2 := by
  unfold Store.prepare
  rw [h.frames]
  split
  · exact ⟨rfl, h⟩
  · exact ⟨rfl, h.changeRuntime _⟩

theorem startProgram (h : s.AgreeFor rt t) (module : NamespaceId) (program : Program) :
    (t.startProgram rt module program).1 = (s.startProgram rt module program).1 ∧
      (s.startProgram rt module program).2.AgreeFor rt (t.startProgram rt module program).2 := by
  rw [h.eq_with]
  exact ⟨rfl, rfl, rfl, rfl, h.runtime⟩

theorem startFile (h : s.AgreeFor rt t) (files : Files) (module : NamespaceId) (path : String) :
    (t.startFile files rt module path).1 = (s.startFile files rt module path).1 ∧
      (s.startFile files rt module path).2.AgreeFor rt (t.startFile files rt module path).2 := by
  unfold Store.startFile
  split
  · exact ⟨rfl, h⟩
  next text full _ =>
    obtain ⟨same, agree⟩ := (h.bind module "__file__" (.text full)).prepare text
    dsimp only
    generalize (s.bind module "__file__" (.text full)).prepare rt text = left at *
    generalize (t.bind module "__file__" (.text full)).prepare rt text = right at *
    obtain ⟨_, u⟩ := left
    obtain ⟨result, w⟩ := right
    dsimp only at same agree
    subst same
    cases result with
    | error e => exact ⟨rfl, agree⟩
    | ok program =>
      obtain ⟨starts, started⟩ := agree.startProgram module program
      exact ⟨congrArg Except.ok starts, started⟩

theorem beginLoad (h : s.AgreeFor rt t) (name : String) :
    (t.beginLoad rt name).1 = (s.beginLoad rt name).1 ∧
      (s.beginLoad rt name).2.AgreeFor rt (t.beginLoad rt name).2 := by
  unfold Store.beginLoad
  rw [h.read, h.eq_with]
  exact ⟨rfl, rfl, rfl, rfl, h.runtime⟩

theorem lookUpPath (h : s.AgreeFor rt t) (id : NamespaceId) (path : List String) :
    t.lookUpPath id path = s.lookUpPath id path := by
  rw [h.eq_with, lookUpPath_runtimes]

theorem siblingFile (h : s.AgreeFor rt t) (frame : FrameId) (module : NamespaceId) (name : String) :
    t.siblingFile ⟨frame, module, rt⟩ name = s.siblingFile ⟨frame, module, rt⟩ name := by
  unfold Store.siblingFile
  rw [h.read, h.heap]

theorem readSlot (h : s.AgreeFor rt t) (id : FrameId) (slot : SlotRef) :
    t.readSlot id slot = s.readSlot id slot := by
  unfold Store.readSlot
  rw [h.eq_with, outer?_runtimes]

end AgreeFor

/-! ## Other runtimes -/

variable {other : RuntimeId}

theorem runtime_dispatch_of_ne (differs : other ≠ rt) (registry : Registry) (module : NamespaceId)
    (signature : Signature) (args : List Value) :
    (s.dispatch registry rt module signature args).2.runtime other = s.runtime other := by
  rw [runtime_of_runtimes (s.runtimes_dispatch registry module signature args rt)]
  unfold decide
  dsimp only
  split
  · rfl
  · exact (s.runtime_changeRuntime rt other _).resolve_right fun same => differs same.1

theorem runtime_prepare_of_ne (differs : other ≠ rt) {text : String} {result : Except ScriptError Program}
    (prepared : s.prepare rt text = (result, t)) : t.runtime other = s.runtime other := by
  obtain rfl | ⟨requests, rfl⟩ := store_of_prepare prepared
  · rfl
  · exact (s.runtime_changeRuntime rt other _).resolve_right fun same => differs same.1

theorem runtime_startFile_of_ne (differs : other ≠ rt) {files : Files} {module : NamespaceId}
    {path : String} {result : Except ScriptError Control}
    (started : s.startFile files rt module path = (result, t)) :
    t.runtime other = s.runtime other := by
  cases fileStarts_of_eq started with
  | unreadable => rfl
  | refused _ prepared | starts _ prepared => exact (runtime_prepare_of_ne differs prepared :)

end Store

/-! ## Steps -/

/-- States that go on in the same way, in stores that a runtime cannot tell apart. -/
structure Config.AgreeFor (rt : RuntimeId) (c d : Config) : Prop where
  control : d.control = c.control
  stack : d.stack = c.stack
  store : c.store.AgreeFor rt d.store

namespace Machine

/-- **A step that resolves things against one runtime**: it is the same in all stores that the runtime cannot
tell apart, and it changes no other runtime.  An operation does what is chosen now from what the host offers
to the runtime, in the module at hand and under the globals of the runtime, and this runtime is the one that
remembers what has been decided.  An import looks under its globals first, and a file is run for it. -/
structure Resolves (setting : Setting) (rt : RuntimeId) (c : Config) : Prop where
  same (t : Store) : c.store.AgreeFor rt t →
    (step setting c).AgreeFor rt (step setting { c with store := t })
  others (other : RuntimeId) : other ≠ rt → (step setting c).store.runtime other = c.store.runtime other
  operates (env : Env) (signature : Signature) (args : List Value) (outcome : Outcome) (after : Store) :
    c.control = .dispatch env signature args →
      c.store.dispatchAfresh setting.registry rt env.module signature args = (outcome, after) →
        (step setting c).store.toHeap = after.toHeap ∧ (step setting c).control =
          match outcome with
          | .reply reply => .ofReply reply
          | .dispatch other passed => .dispatch env other passed
  remembers (env : Env) (signature : Signature) (args : List Value) :
    c.control = .dispatch env signature args →
      (step setting c).store.runtime rt = (c.store.decide setting.registry rt signature args).2.runtime rt
  imports (env : Env) (position : Position) (path : List String) (name : String) (v : Value) :
    c.control = .eval env (.importAs position path name) →
      c.store.lookUpPath (c.store.runtime rt).globals path = some v → (step setting c).control = .value v
  loads (env inner : Env) (position : Position) (path : List String) (name : String) :
    c.control = .eval env (.importAs position path name) →
      (step setting c).control.env? = some inner → inner.runtime = rt

variable {setting : Setting} {rt : RuntimeId} {frame : FrameId} {module : NamespaceId}
  {stack : List Pending} {s t : Store}

theorem agreeFor_importPath (h : s.AgreeFor rt t) (path : List String) :
    (importPath setting ⟨frame, module, rt⟩ path stack s).AgreeFor rt
      (importPath setting ⟨frame, module, rt⟩ path stack t) := by
  unfold importPath
  dsimp only
  rw [h.read, h.lookUpPath]
  split
  · exact ⟨rfl, rfl, h⟩
  next name _ =>
    rw [h.siblingFile]
    split
    · obtain ⟨same, begun⟩ := h.beginLoad name
      rw [same]
      obtain ⟨result, agree⟩ := begun.startFile setting.files (s.beginLoad rt name).1.module
        (s.siblingFile ⟨frame, module, rt⟩ name)
      generalize (s.beginLoad rt name).2.startFile setting.files rt _ _ = left at *
      generalize (t.beginLoad rt name).2.startFile setting.files rt _ _ = right at *
      obtain ⟨_, u⟩ := left
      obtain ⟨answer, w⟩ := right
      dsimp only at result agree
      subst result
      cases answer with
      | ok control => exact ⟨rfl, rfl, agree⟩
      | error e => exact ⟨rfl, rfl, agree⟩
    · exact ⟨rfl, rfl, h⟩
  · exact ⟨rfl, rfl, h⟩

theorem agreeFor_eval (h : s.AgreeFor rt t) (code : Code) :
    (eval setting ⟨frame, module, rt⟩ code stack s).AgreeFor rt
      (eval setting ⟨frame, module, rt⟩ code stack t) := by
  cases code with
  | read slot => exact ⟨congrArg Control.value (h.readSlot frame slot), rfl, h⟩
  | closure template =>
    rw [h.eq_with]
    exact ⟨rfl, rfl, rfl, rfl, rfl, h.runtime⟩
  | importAs position path name => exact agreeFor_importPath h path
  | dispatch _ _ operands => cases operands <;> exact ⟨rfl, rfl, h⟩
  | choose branches _ => cases branches <;> exact ⟨rfl, rfl, h⟩
  | sequence codes => cases codes <;> exact ⟨rfl, rfl, h⟩
  | _ => exact ⟨rfl, rfl, h⟩

theorem runtime_importPath_of_ne {other : RuntimeId} (differs : other ≠ rt) (path : List String) :
    (importPath setting ⟨frame, module, rt⟩ path stack s).store.runtime other = s.runtime other := by
  match importPath setting ⟨frame, module, rt⟩ path stack s,
    importsTo setting ⟨frame, module, rt⟩ path stack s with
  | _, .bound _ | _, .missing _ _ => rfl
  | _, .starts file | _, .refused file => exact (Store.runtime_startFile_of_ne differs file.started :)

/-- A file that is imported is run for the runtime. -/
theorem runtime_of_importPath {path : List String} {inner : Env}
    (there : (importPath setting ⟨frame, module, rt⟩ path stack s).control.env? = some inner) :
    inner.runtime = rt := by
  revert there
  match importPath setting ⟨frame, module, rt⟩ path stack s,
    importsTo setting ⟨frame, module, rt⟩ path stack s with
  | _, .bound _ | _, .missing _ _ | _, .refused _ => exact nofun
  | _, .starts file =>
    intro there
    obtain ⟨-, -, starts⟩ := Store.startFile_leads file.started
    obtain ⟨place, -⟩ := starts _ rfl
    obtain rfl := Option.some.inj (place.symm.trans there)
    rfl

/-- **Names, rules and imports are resolved against the runtime of the environment**, and against no
other. -/
theorem resolves_step {c : Config} {env : Env} (works : c.control.env? = some env)
    (faithful : c.store.Faithful setting.registry) : Resolves setting env.runtime c := by
  obtain ⟨control, stack, s⟩ := c
  obtain ⟨frame, module, rt⟩ := env
  refine ⟨fun t agree => ?_, fun other differs => ?_, ?_, ?_, ?_, ?_⟩
  · cases control with
    | eval env code =>
      obtain rfl := Option.some.inj works
      exact agreeFor_eval agree code
    | dispatch env signature args =>
      obtain rfl := Option.some.inj works
      obtain ⟨same, after⟩ := agree.dispatch setting.registry signature args module
      unfold step
      dsimp only
      generalize s.dispatch setting.registry rt module signature args = left at *
      generalize t.dispatch setting.registry rt module signature args = right at *
      obtain ⟨_, u⟩ := left
      obtain ⟨outcome, w⟩ := right
      dsimp only at same after
      subst same
      cases outcome <;> exact ⟨rfl, rfl, after⟩
    | _ => cases works
  · cases control with
    | eval env code =>
      obtain rfl := Option.some.inj works
      by_cases imports : ∃ position path name, code = .importAs position path name
      · obtain ⟨position, path, name, rfl⟩ := imports
        exact runtime_importPath_of_ne differs path
      · exact Store.runtime_of_runtimes (runtimes_eval code
          fun position path name same => imports ⟨position, path, name, same⟩) other
    | dispatch env signature args =>
      obtain rfl := Option.some.inj works
      rw [store_step_dispatch]
      exact Store.runtime_dispatch_of_ne differs setting.registry module signature args
    | _ => cases works
  · rintro env signature args outcome after rfl afresh
    obtain rfl := Option.some.inj works
    obtain ⟨same, alike⟩ := faithful.agree_dispatch (.refl s) rt module signature args
    rw [afresh] at same alike
    unfold step
    dsimp only
    generalize s.dispatch setting.registry rt module signature args = done at *
    obtain ⟨result, t⟩ := done
    dsimp only at same alike
    subst same
    cases result <;> exact ⟨alike.heap, rfl⟩
  · rintro env signature args rfl
    obtain rfl := Option.some.inj works
    rw [store_step_dispatch]
    exact Store.runtime_of_runtimes (s.runtimes_dispatch setting.registry module signature args rt) rt
  · rintro env position path name v rfl found
    obtain rfl := Option.some.inj works
    show (importPath setting ⟨frame, module, rt⟩ path _ s).control = _
    unfold importPath
    dsimp only
    rw [found]
  · rintro env inner position path name rfl there
    obtain rfl := Option.some.inj works
    exact runtime_of_importPath there

end Machine

end HostScript
