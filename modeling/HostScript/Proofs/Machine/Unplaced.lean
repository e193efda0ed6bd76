import HostScript.Proofs.Compile.Bare
import HostScript.Proofs.Dispatch.Transparency
import HostScript.Proofs.Machine.Reads

/-!
# Proofs/Machine/Unplaced — positions do not matter

A machine reads the positions in codes only to give them to failures, and nothing looks at those.  So a
machine without positions goes through the same states as one with them, up to positions: `unplaced_step`.
-/

namespace HostScript

/-! ## Codes -/

namespace Code

mutual

theorem unplaced_unplaced : ∀ code : Code, code.unplaced.unplaced = code.unplaced
  | null | constant _ | thisModule | read _ | importAs _ _ _ => rfl
  | write _ value => congrArg (write _) (unplaced_unplaced value)
  | dispatch _ s operands => congrArg (dispatch .nowhere s) (unplacedAll_unplacedAll operands)
  | closure ⟨_, _, _, _, body⟩ => congrArg (fun body => closure ⟨_, _, _, _, body⟩) (unplaced_unplaced body)
  | choose branches otherwise =>
    congrArg₂ choose (unplacedArms_unplacedArms branches) (unplaced_unplaced otherwise)
  | loop _ body => congrArg (loop _) (unplaced_unplaced body)
  | leave _ value => congrArg (leave _) (unplaced_unplaced value)
  | give _ value => congrArg (give _) (unplaced_unplaced value)
  | sequence codes => congrArg sequence (unplacedAll_unplacedAll codes)

theorem unplacedAll_unplacedAll : ∀ codes : List Code, unplacedAll (unplacedAll codes) = unplacedAll codes
  | [] => rfl
  | code :: rest => congrArg₂ List.cons (unplaced_unplaced code) (unplacedAll_unplacedAll rest)

theorem unplacedArms_unplacedArms :
    ∀ branches : List (Code × Code), unplacedArms (unplacedArms branches) = unplacedArms branches
  | [] => rfl
  | (test, body) :: rest => congrArg₂ List.cons
    (congrArg₂ Prod.mk (unplaced_unplaced test) (unplaced_unplaced body)) (unplacedArms_unplacedArms rest)

end

end Code

/-- A template without positions. -/
def Template.unplaced (template : Template Code) : Template Code :=
  { template with body := template.body.unplaced }

theorem Template.unplaced_unplaced (template : Template Code) :
    template.unplaced.unplaced = template.unplaced :=
  congrArg (fun body => { template with body := body }) template.body.unplaced_unplaced

/-! ## States -/

/-- A failure without its position. -/
def EvalError.unplaced (e : EvalError) : EvalError := .ofCause e.cause

/-- An exit without positions. -/
def Exit.unplaced : Exit → Exit
  | .fail e => .fail e.unplaced
  | e => e

/-- What can be called, without positions. -/
def Callable.unplaced : Callable → Callable
  | .script template frame module rt => .script template.unplaced frame module rt
  | f => f

/-- A store without positions: they are in the functions of scripts. -/
def Store.unplaced (s : Store) : Store := { s with functions := s.functions.map Callable.unplaced }

/-- Pending work without positions. -/
def Pending.unplaced : Pending → Pending
  | .operands env _ signature done todo =>
    .operands env .nowhere signature done (Code.unplacedAll todo)
  | .test env body rest otherwise => .test env body.unplaced (Code.unplacedArms rest) otherwise.unplaced
  | .sequence env rest => .sequence env (Code.unplacedAll rest)
  | .loop env label body => .loop env label body.unplaced
  | .locate _ => .locate .nowhere
  | waiting => waiting

/-- What a machine is about to do, without positions. -/
def Control.unplaced : Control → Control
  | .eval env code => .eval env code.unplaced
  | .exit e => .exit e.unplaced
  | control => control

/-- A state without positions. -/
def Config.unplaced (c : Config) : Config :=
  ⟨c.control.unplaced, c.stack.map Pending.unplaced, c.store.unplaced⟩

theorem Exit.unplaced_unplaced (e : Exit) : e.unplaced.unplaced = e.unplaced := by
  cases e <;> rfl

theorem Callable.unplaced_unplaced (f : Callable) : f.unplaced.unplaced = f.unplaced := by
  cases f with
  | script template frame module rt =>
    exact congrArg (Callable.script · frame module rt) template.unplaced_unplaced
  | native => rfl

theorem Pending.unplaced_unplaced (waiting : Pending) : waiting.unplaced.unplaced = waiting.unplaced := by
  cases waiting with
  | operands env position signature done todo =>
    exact congrArg (Pending.operands env .nowhere signature done) (Code.unplacedAll_unplacedAll todo)
  | test env body rest otherwise =>
    unfold unplaced
    dsimp only
    rw [Code.unplaced_unplaced, Code.unplacedArms_unplacedArms, Code.unplaced_unplaced]
  | sequence env rest => exact congrArg (Pending.sequence env) (Code.unplacedAll_unplacedAll rest)
  | loop env label body => exact congrArg (Pending.loop env label) body.unplaced_unplaced
  | _ => rfl

namespace Store

theorem unplaced_unplaced (s : Store) : s.unplaced.unplaced = s.unplaced := by
  have same : Callable.unplaced ∘ Callable.unplaced = Callable.unplaced :=
    funext Callable.unplaced_unplaced
  unfold unplaced
  dsimp only
  rw [Array.map_map, same]

/-! ## What stores do -/

variable (s : Store)

theorem function?_unplaced (id : FunctionId) :
    s.unplaced.function? id = (s.function? id).map Callable.unplaced := Array.getElem?_map

theorem newFunction_unplaced (f : Callable) :
    s.unplaced.newFunction f.unplaced = ((s.newFunction f).1, (s.newFunction f).2.unplaced) := by
  have size : s.unplaced.functions.size = s.functions.size := Array.size_map
  have pushed : (s.functions.push f).map Callable.unplaced =
      (s.functions.map Callable.unplaced).push f.unplaced := Array.map_push
  have shown : f.unplaced.name = f.name ∧ f.unplaced.arity = f.arity := by cases f <;> exact ⟨rfl, rfl⟩
  unfold newFunction
  dsimp only
  rw [size, shown.1, shown.2, unplaced, unplaced, pushed]

theorem outer?_unplaced (id : FrameId) (depth : Nat) : s.unplaced.outer? id depth = s.outer? id depth := by
  induction depth generalizing id with
  | zero => rfl
  | succ depth ih =>
    exact congrArg (Option.bind _) (funext fun frame => congrArg (Option.bind _) (funext ih))

theorem readSlot_unplaced (id : FrameId) (slot : SlotRef) :
    s.unplaced.readSlot id slot = s.readSlot id slot := by
  unfold readSlot
  rw [outer?_unplaced]
  rfl

theorem writeSlot_unplaced (id : FrameId) (slot : SlotRef) (v : Value) :
    s.unplaced.writeSlot id slot v = (s.writeSlot id slot v).unplaced := by
  unfold writeSlot
  rw [outer?_unplaced]
  cases s.outer? id slot.depth <;> rfl

theorem lookUpPath_unplaced (id : NamespaceId) (path : List String) :
    s.unplaced.lookUpPath id path = s.lookUpPath id path := by
  induction path generalizing id with
  | nil => rfl
  | cons name rest ih =>
    cases rest with
    | nil => rfl
    | cons next rest =>
      have same : s.unplaced.get? id name = s.get? id name := rfl
      unfold lookUpPath
      rw [same]
      split
      · exact ih _
      · rfl

theorem prepare_unplaced (rt : RuntimeId) (source : String) :
    s.unplaced.prepare rt source = ((s.prepare rt source).1, (s.prepare rt source).2.unplaced) := by
  unfold prepare
  cases parse source <;> rfl

theorem startFile_unplaced (files : Files) (rt : RuntimeId) (module : NamespaceId) (path : String) :
    s.unplaced.startFile files rt module path =
      ((s.startFile files rt module path).1, (s.startFile files rt module path).2.unplaced) := by
  unfold startFile
  cases files.read path with
  | error e => rfl
  | ok found =>
    have bound : s.unplaced.bind module "__file__" (.text found.2) =
        (s.bind module "__file__" (.text found.2)).unplaced := rfl
    dsimp only
    rw [bound, prepare_unplaced]
    cases (s.bind module "__file__" (.text found.2)).prepare rt found.1 with
    | mk result t => cases result <;> rfl

theorem undoLoad_unplaced (load : Load) : s.unplaced.undoLoad load = (s.undoLoad load).unplaced := by
  unfold undoLoad
  cases load.previous? <;> rfl

theorem decide_unplaced (registry : Registry) (rt : RuntimeId) (signature : Signature)
    (args : List Value) : s.unplaced.decide registry rt signature args =
      ((s.decide registry rt signature args).1, (s.decide registry rt signature args).2.unplaced) := by
  have same : s.unplaced.runtime rt = s.runtime rt := rfl
  unfold decide
  rw [same]
  dsimp only
  cases (s.runtime rt).rules.find? signature (args.map Value.shape) <;> rfl

theorem dispatch_unplaced (registry : Registry) (rt : RuntimeId) (module : NamespaceId)
    (signature : Signature) (args : List Value) :
    s.unplaced.dispatch registry rt module signature args =
      ((s.dispatch registry rt module signature args).1,
        (s.dispatch registry rt module signature args).2.unplaced) := by
  unfold dispatch
  rw [decide_unplaced]
  generalize s.decide registry rt signature args = decided
  have only := heapOnly_perform registry (decided.2.runtime rt).globals module signature args decided.1
  have done := only.replaced decided.2 decided.2.frames (decided.2.functions.map Callable.unplaced)
    decided.2.runtimes
  have kept : { (decided.2.perform registry (decided.2.runtime rt).globals module decided.1 signature
        args).2 with
      frames := decided.2.frames
      functions := decided.2.functions.map Callable.unplaced
      runtimes := decided.2.runtimes } = (decided.2.perform registry (decided.2.runtime rt).globals module
        decided.1 signature args).2.unplaced := by
    rw [unplaced, only.functions, ← only.frames, ← only.runtimes]
  exact done.trans (congrArg (Prod.mk _) kept)

end Store

/-! ## Steps -/

section

variable {control control' : Control} {stack : List Pending} {s : Store}

theorem Control.unplaced_unplaced (control : Control) : control.unplaced.unplaced = control.unplaced := by
  cases control with
  | eval env code => exact congrArg (Control.eval env) code.unplaced_unplaced
  | exit e => exact congrArg Control.exit e.unplaced_unplaced
  | _ => rfl

/-- States with the same control, up to positions. -/
theorem Config.unplaced_of_control (same : control.unplaced = control'.unplaced) :
    (Config.mk control stack s).unplaced =
      (Config.mk control' (stack.map Pending.unplaced) s.unplaced).unplaced := by
  have again : Pending.unplaced ∘ Pending.unplaced = Pending.unplaced := funext Pending.unplaced_unplaced
  unfold Config.unplaced
  dsimp only
  rw [same, List.map_map, again, s.unplaced_unplaced]

/-- A state that is another one without its positions. -/
theorem Config.unplaced_of_eq {c d : Config} (same : d = c.unplaced) : c.unplaced = d.unplaced := by
  rw [same]
  exact Config.unplaced_of_control c.control.unplaced_unplaced.symm

end

namespace Machine

open Config (unplaced_of_control unplaced_of_eq)

variable (setting : Setting) (env : Env) (stack : List Pending) (s : Store)

theorem unplaced_importPath (path : List String) : (importPath setting env path stack s).unplaced =
    (importPath setting env path (stack.map Pending.unplaced) s.unplaced).unplaced := by
  have runtime : s.unplaced.runtime env.runtime = s.runtime env.runtime := rfl
  unfold importPath
  rw [runtime, Store.lookUpPath_unplaced]
  split
  next => exact unplaced_of_control rfl
  next name _ =>
    have sibling : s.unplaced.siblingFile env name = s.siblingFile env name := rfl
    have begins : s.unplaced.beginLoad env.runtime name =
      ((s.beginLoad env.runtime name).1, (s.beginLoad env.runtime name).2.unplaced) := rfl
    dsimp only
    rw [sibling]
    split
    · rw [begins]
      dsimp only
      rw [Store.startFile_unplaced]
      cases (s.beginLoad env.runtime name).2.startFile setting.files env.runtime
          (s.beginLoad env.runtime name).1.module (s.siblingFile env name) with
      | mk result t => cases result <;> exact unplaced_of_control rfl
    · exact unplaced_of_control rfl
  next => exact unplaced_of_control rfl

/-- **Evaluating a code without its positions** goes on in the same way, up to positions. -/
theorem unplaced_eval (code : Code) : (eval setting env code stack s).unplaced =
    (eval setting env code.unplaced (stack.map Pending.unplaced) s.unplaced).unplaced := by
  cases code with
  | read slot =>
    refine unplaced_of_eq ?_
    unfold Code.unplaced eval
    dsimp only
    rw [Store.readSlot_unplaced]
    rfl
  | dispatch position signature operands => cases operands <;> exact unplaced_of_eq rfl
  | closure template =>
    have made := s.newFunction_unplaced (.script template env.frame env.module env.runtime)
    refine unplaced_of_eq ?_
    unfold Code.unplaced eval
    dsimp only
    exact congrArg (fun made : FunctionInfo × Store =>
      Config.mk (.value (.function made.1)) (stack.map Pending.unplaced) made.2) made
  | choose branches otherwise => cases branches <;> exact unplaced_of_eq rfl
  | sequence codes => cases codes <;> exact unplaced_of_eq rfl
  | importAs position path name =>
    exact unplaced_importPath setting env (.locate position :: .bind env.module name :: stack) s path
  | _ => exact unplaced_of_eq rfl

/-- **Handing a value to pending work without positions.** -/
theorem unplaced_resume (v : Value) (waiting : Pending) : (resume v waiting stack s).unplaced =
    (resume v waiting.unplaced (stack.map Pending.unplaced) s.unplaced).unplaced := by
  cases waiting with
  | operands env position signature done todo => cases todo <;> exact unplaced_of_eq rfl
  | write frame slot =>
    refine unplaced_of_eq ?_
    unfold Pending.unplaced resume
    dsimp only
    rw [Store.writeSlot_unplaced]
    rfl
  | test env body rest otherwise =>
    refine unplaced_of_eq ?_
    unfold Pending.unplaced resume
    dsimp only
    split <;> rfl
  | sequence env rest => cases rest <;> exact unplaced_of_eq rfl
  | _ => exact unplaced_of_eq rfl

theorem unplaced_unwind (e : Exit) (waiting : Pending) : (unwind e waiting stack s).unplaced =
    (unwind e.unplaced waiting.unplaced (stack.map Pending.unplaced) s.unplaced).unplaced := by
  cases waiting with
  | loop env label body =>
    cases e with
    | leave target v =>
      unfold Pending.unplaced Exit.unplaced unwind
      dsimp only
      split <;> exact unplaced_of_control rfl
    | _ => exact unplaced_of_control rfl
  | call returnLabel? =>
    cases e with
    | give target v =>
      unfold Pending.unplaced Exit.unplaced unwind
      dsimp only
      split <;> exact unplaced_of_control rfl
    | _ => exact unplaced_of_control rfl
  | load load =>
    have undone := s.undoLoad_unplaced load
    unfold unwind Pending.unplaced
    cases e <;>
    · dsimp only [Exit.unplaced]
      rw [undone]
      exact unplaced_of_control rfl
  | _ => cases e <;> exact unplaced_of_control rfl

theorem unplaced_enter (function : FunctionInfo) (args : List Value) :
    (enter setting function args stack s).unplaced =
      (enter setting function args (stack.map Pending.unplaced) s.unplaced).unplaced := by
  unfold enter
  rw [s.function?_unplaced]
  cases s.function? function.id with
  | none => exact unplaced_of_control rfl
  | some f =>
    cases f with
    | native name arity index =>
      dsimp only [Option.map, Callable.unplaced]
      split <;> exact unplaced_of_control rfl
    | script template frame module rt =>
      dsimp only [Option.map, Callable.unplaced]
      have runtime : s.unplaced.runtime rt = s.runtime rt := rfl
      rw [runtime]
      split
      · exact unplaced_of_eq rfl
      · exact unplaced_of_control rfl

/-- **A machine without positions goes through the same states**, up to positions. -/
theorem unplaced_step (c : Config) : (step setting c).unplaced = (step setting c.unplaced).unplaced := by
  obtain ⟨control, stack, s⟩ := c
  cases control with
  | eval env code => exact unplaced_eval setting env stack s code
  | dispatch env signature args =>
    have done := s.dispatch_unplaced setting.registry env.runtime env.module signature args
    have after : step setting (Config.mk (.dispatch env signature args) stack s).unplaced = _ :=
      step_dispatch setting env signature args (stack.map Pending.unplaced) s.unplaced
    rw [step_dispatch, after, done]
    cases (s.dispatch setting.registry env.runtime env.module signature args).1 <;>
      exact unplaced_of_control rfl
  | enter function args => exact unplaced_enter setting stack s function args
  | value v =>
    cases stack with
    | nil => exact unplaced_of_control rfl
    | cons waiting stack => exact unplaced_resume stack s v waiting
  | exit e =>
    cases stack with
    | nil => exact unplaced_of_control (congrArg Control.exit e.unplaced_unplaced.symm)
    | cons waiting stack => exact unplaced_unwind stack s e waiting

end Machine

end HostScript
