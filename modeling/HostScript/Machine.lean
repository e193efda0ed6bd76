import HostScript.Dispatch.Perform
import HostScript.Files
import HostScript.ScriptError

/-!
# Machine — running compiled scripts

The machine evaluates one code at a time and keeps what waits for its result on a stack, so that
calls of scripts may be nested as deep as memory allows.  A jump or a failure takes pending work off
the stack until something catches it: a loop, a call or the load of a file.

`step` makes one step of a configuration, and `run` makes steps until there is an answer; `run_of_le`
says that the answer does not depend on how many steps it was allowed to make.  Importing
a file binds the file's module globally before the file is run, and undoes that if it fails.
-/

namespace HostScript

/-- What the machine is given and does not change: the types and functions of the host, and the
files. -/
structure Setting where
  registry : Registry
  /-- The functions of the host. -/
  natives : Array (List Value → Effect)
  files : Files

/-- The value of a constant. -/
def Value.ofLiteral : Literal → Value
  | .bool b => .bool b
  | .int i => .int i
  | .float x => .float x
  | .text t => .text t

/-- Where code runs: the activation, the module and the runtime. -/
structure Env where
  frame : FrameId
  module : NamespaceId
  runtime : RuntimeId
  deriving DecidableEq, Repr

/-- Why the evaluation of code ends before its end. -/
inductive Exit where
  /-- Leaving a loop with a value. -/
  | leave (label : Label) (value : Value)
  /-- Returning from a function with a value. -/
  | give (label : Label) (value : Value)
  | fail (error : EvalError)
  deriving Repr

/-- The failure an exit amounts to where nothing inside the source has caught it. -/
def Exit.toError : Exit → EvalError
  | leave _ _ => .ofCause (.host "`break` escaped its loop")
  | give _ _ => .ofCause (.host "`return` escaped its function")
  | fail e => e

/-- The load of a file in progress: the module being filled, and what the name it is bound to
globally was bound to before. -/
structure Load where
  module : NamespaceId
  globals : NamespaceId
  name : String
  previous? : Option Value
  deriving Repr

/-- What waits for the value of the code being evaluated. -/
inductive Pending where
  /-- The operands still to be evaluated, after those that have been, the last one first. -/
  | operands (env : Env) (position : Position) (signature : Signature) (done : List Value)
    (todo : List Code)
  | write (frame : FrameId) (slot : SlotRef)
  /-- A test that decides between a body and what follows it. -/
  | test (env : Env) (body : Code) (rest : List (Code × Code)) (otherwise : Code)
  | sequence (env : Env) (rest : List Code)
  | loop (env : Env) (label : Label) (body : Code)
  | leave (label : Label)
  | give (label : Label)
  /-- Binding the value in a module; the value of this is null. -/
  | bind (module : NamespaceId) (name : String)
  /-- A failure gets this position unless it has one. -/
  | locate (position : Position)
  /-- The call of a function of a script, with the label of its `return`s. -/
  | call (returnLabel? : Option Label)
  | load (load : Load)

/-- What the machine is about to do. -/
inductive Control where
  | eval (env : Env) (code : Code)
  | dispatch (env : Env) (signature : Signature) (args : List Value)
  /-- Enters a function, with any number of arguments. -/
  | enter (function : FunctionInfo) (args : List Value)
  | value (v : Value)
  | exit (e : Exit)

/-- Fails without a position. -/
def Control.fail (cause : EvalError.Cause) : Control := .exit (.fail (.ofCause cause))

/-- Goes on after the answer of a host member. -/
def Control.ofReply : Reply → Control
  | .value v => .value v
  | .fail cause => .fail cause
  | .call f args => .enter f args

/-- A state of the machine. -/
structure Config where
  control : Control
  stack : List Pending
  store : Store

namespace Store

/-! ## Programs -/

/-- The program of a source.  The rules that it asks for are requested from the runtime, also those of
a source that turns out to be no program. -/
def prepare (s : Store) (rt : RuntimeId) (source : String) : Except ScriptError Program × Store :=
  match parse source with
  | .error e => (.error (.ofSyntax e), s)
  | .ok tree =>
    let (result, requests) := compile s.frames.size source.toList tree
    (result.mapError .compile, s.changeRules rt fun rules => requests.foldl Rules.request rules)

/-- What evaluates a program in a module. -/
def startProgram (s : Store) (rt : RuntimeId) (module : NamespaceId) (program : Program) :
    Control × Store :=
  let (frame, s) := s.newFrame program.layout [] none
  (.eval ⟨frame, module, rt⟩ program.code, s)

/-- What runs a file in a module, which learns the full path to the file. -/
def startFile (s : Store) (files : Files) (rt : RuntimeId) (module : NamespaceId) (path : String) :
    Except ScriptError Control × Store :=
  match files.read path with
  | .error e => (.error (.eval (.ofCause (.unreadable path e.message))), s)
  | .ok (source, fullPath) =>
    let s := s.bind module "__file__" (.text fullPath)
    match s.prepare rt source with
    | (.ok program, s) =>
      let (control, s) := s.startProgram rt module program
      (.ok control, s)
    | (.error e, s) => (.error e, s)

/-! ## Loads -/

/-- Begins to load a file: a new module is bound globally. -/
def beginLoad (s : Store) (rt : RuntimeId) (name : String) : Load × Store :=
  let globals := (s.runtime rt).globals
  let previous? := s.get? globals name
  let (module, s) := s.newSpace
  (⟨module, globals, name, previous?⟩, s.bind globals name (.space module))

/-- Undoes the global binding of a load that failed. -/
def undoLoad (s : Store) (load : Load) : Store :=
  match load.previous? with
  | some v => s.bind load.globals load.name v
  | none => s.unbind load.globals load.name

/-- What a path of names leads to, from a namespace. -/
def lookUpPath (s : Store) (id : NamespaceId) : List String → Option Value
  | [] => none
  | [name] => s.get? id name
  | name :: rest =>
    match s.get? id name with
    | some (.space inner) => s.lookUpPath inner rest
    | _ => none

/-- The file that an import of a name looks for: one beside the file of the module. -/
def siblingFile (s : Store) (env : Env) (name : String) : String :=
  let directory :=
    match s.get? env.module "__file__" with
    | some (.text path) => (Path.parent? path).getD "."
    | _ => "."
  Path.join directory (name ++ "." ++ (s.runtime env.runtime).extension)

end Store

namespace Machine

/-! ## Steps -/

/-- The state after an import of a path of names: what is bound globally, or the module of a file. -/
def importPath (setting : Setting) (env : Env) (path : List String) (stack : List Pending)
    (s : Store) : Config :=
  match s.lookUpPath (s.runtime env.runtime).globals path, path with
  | some v, _ => ⟨.value v, stack, s⟩
  | none, [name] =>
    let file := s.siblingFile env name
    if setting.files.isFile file then
      let (load, s) := s.beginLoad env.runtime name
      match s.startFile setting.files env.runtime load.module file with
      | (.ok control, s) => ⟨control, .load load :: stack, s⟩
      | (.error e, s) => ⟨.exit (.fail e.toEval), .load load :: stack, s⟩
    else ⟨.fail (.importNotFound name file), stack, s⟩
  | none, path =>
    ⟨.fail (.importNotFound (".".intercalate path) "for dotted names"), stack, s⟩

/-- The state after a dynamic operation whose operands are known. -/
def operate (env : Env) (position : Position) (signature : Signature) (args : List Value)
    (stack : List Pending) (s : Store) : Config :=
  ⟨.dispatch env signature args, .locate position :: stack, s⟩

/-- Evaluates code, with what waits for its value. -/
def eval (setting : Setting) (env : Env) (code : Code) (stack : List Pending) (s : Store) :
    Config :=
  match code with
  | .null => ⟨.value .null, stack, s⟩
  | .constant literal => ⟨.value (.ofLiteral literal), stack, s⟩
  | .thisModule => ⟨.value (.space env.module), stack, s⟩
  | .read slot => ⟨.value (s.readSlot env.frame slot), stack, s⟩
  | .write slot value => ⟨.eval env value, .write env.frame slot :: stack, s⟩
  | .dispatch position signature [] => operate env position signature [] stack s
  | .dispatch position signature (first :: rest) =>
    ⟨.eval env first, .operands env position signature [] rest :: stack, s⟩
  | .closure template =>
    let (f, s) := s.newFunction (.script template env.frame env.module env.runtime)
    ⟨.value (.function f), stack, s⟩
  | .choose [] otherwise => ⟨.eval env otherwise, stack, s⟩
  | .choose ((test, body) :: rest) otherwise =>
    ⟨.eval env test, .test env body rest otherwise :: stack, s⟩
  | .loop label body => ⟨.eval env body, .loop env label body :: stack, s⟩
  | .leave label value => ⟨.eval env value, .leave label :: stack, s⟩
  | .give label value => ⟨.eval env value, .give label :: stack, s⟩
  | .sequence [] => ⟨.value .null, stack, s⟩
  | .sequence (first :: rest) => ⟨.eval env first, .sequence env rest :: stack, s⟩
  | .importAs position path name =>
    importPath setting env path (.locate position :: .bind env.module name :: stack) s

/-- Hands a value to what waits for it. -/
def resume (v : Value) (waiting : Pending) (stack : List Pending) (s : Store) : Config :=
  match waiting with
  | .operands env position signature done [] =>
    operate env position signature (v :: done).reverse stack s
  | .operands env position signature done (next :: todo) =>
    ⟨.eval env next, .operands env position signature (v :: done) todo :: stack, s⟩
  | .write frame slot => ⟨.value v, stack, s.writeSlot frame slot v⟩
  | .test env body rest otherwise =>
    if v.holds then ⟨.eval env body, stack, s⟩ else ⟨.eval env (.choose rest otherwise), stack, s⟩
  | .sequence _ [] => ⟨.value v, stack, s⟩
  | .sequence env (next :: rest) => ⟨.eval env next, .sequence env rest :: stack, s⟩
  | .loop env label body => ⟨.eval env body, .loop env label body :: stack, s⟩
  | .leave label => ⟨.exit (.leave label v), stack, s⟩
  | .give label => ⟨.exit (.give label v), stack, s⟩
  | .bind module name => ⟨.value .null, stack, s.bind module name v⟩
  | .locate _ => ⟨.value v, stack, s⟩
  | .call returnLabel? => ⟨.value (if returnLabel?.isSome then .null else v), stack, s⟩
  | .load load => ⟨.value (.space load.module), stack, s⟩

/-- Takes pending work off the stack for an exit, which some work catches. -/
def unwind (e : Exit) (waiting : Pending) (stack : List Pending) (s : Store) : Config :=
  match waiting, e with
  | .loop _ label _, .leave target v =>
    if target = label then ⟨.value v, stack, s⟩ else ⟨.exit e, stack, s⟩
  | .locate position, .fail error => ⟨.exit (.fail (error.locate position)), stack, s⟩
  | .call returnLabel?, .give target v =>
    if returnLabel? = some target then ⟨.value v, stack, s⟩
    else ⟨.exit (.fail e.toError), stack, s⟩
  | .call _, e => ⟨.exit (.fail e.toError), stack, s⟩
  | .load load, e => ⟨.exit (.fail e.toError), stack, s.undoLoad load⟩
  | _, e => ⟨.exit e, stack, s⟩

/-- Enters a function: a function of a script gets an activation of its own and needs its runtime. -/
def enter (setting : Setting) (function : FunctionInfo) (args : List Value) (stack : List Pending)
    (s : Store) : Config :=
  match s.function? function.id with
  | some (.native _ _ index) =>
    match setting.natives[index]? with
    | some native =>
      let (reply, s) := s.onHeap (native args)
      ⟨.ofReply reply, stack, s⟩
    | none => ⟨.value .null, stack, s⟩
  | some (.script template frame module rt) =>
    if (s.runtime rt).alive then
      let (inner, s) := s.newFrame template.layout args (some frame)
      ⟨.eval ⟨inner, module, rt⟩ template.body, .call template.returnLabel? :: stack, s⟩
    else ⟨.fail .runtimeDropped, stack, s⟩
  | none => ⟨.value .null, stack, s⟩

/-- One step. -/
def step (setting : Setting) (c : Config) : Config :=
  match c with
  | ⟨.eval env code, stack, s⟩ => eval setting env code stack s
  | ⟨.dispatch env signature args, stack, s⟩ =>
    match s.dispatch setting.registry env.runtime env.module signature args with
    | (.reply reply, s) => ⟨.ofReply reply, stack, s⟩
    | (.dispatch signature args, s) => ⟨.dispatch env signature args, stack, s⟩
  | ⟨.enter f args, stack, s⟩ => enter setting f args stack s
  | ⟨.value v, waiting :: stack, s⟩ => resume v waiting stack s
  | ⟨.exit e, waiting :: stack, s⟩ => unwind e waiting stack s
  | c => c

/-- The answer of a state in which nothing waits. -/
def answer? : Config → Option (Except EvalError Value)
  | ⟨.value v, [], _⟩ => some (.ok v)
  | ⟨.exit e, [], _⟩ => some (.error e.toError)
  | _ => none

/-- Makes at most the given number of steps; none if they lead to no answer. -/
def run (setting : Setting) : Nat → Config → Option (Except EvalError Value × Store)
  | 0, _ => none
  | fuel + 1, c =>
    match answer? c with
    | some answer => some (answer, c.store)
    | none => run setting fuel (step setting c)

/-- **More steps never change an answer.** -/
theorem run_of_le {setting : Setting} {fuel more : Nat} {c : Config}
    {answer : Except EvalError Value × Store} (le : fuel ≤ more)
    (h : run setting fuel c = some answer) : run setting more c = some answer := by
  induction fuel generalizing more c with
  | zero => cases h
  | succ fuel ih =>
    obtain ⟨more, rfl⟩ : ∃ n, more = n + 1 := ⟨more - 1, by omega⟩
    rw [run] at h ⊢
    cases found : answer? c with
    | some reply =>
      rw [found] at h
      exact h
    | none =>
      rw [found] at h
      exact ih (by omega) h

end Machine

end HostScript
