import HostScript.Host.Surface
import HostScript.Library
import HostScript.Machine

/-!
# Execute — running sources, files and functions

What a host asks of a runtime.  Every function here takes the largest number of machine steps it may
make and answers nothing if these are not enough; more steps never change an answer.
-/

namespace HostScript

namespace Machine

/-- Runs a program that has been prepared, and maps its failure. -/
def finish (setting : Setting) (fuel : Nat) (control : Control) (stack : List Pending) (s : Store) :
    Option (Except ScriptError Value × Store) :=
  (run setting fuel ⟨control, stack, s⟩).map fun (answer, s) => (answer.mapError .eval, s)

/-- Runs a source in a module; the value is that of its last statement. -/
def execute (setting : Setting) (fuel : Nat) (rt : RuntimeId) (module : NamespaceId)
    (source : String) (s : Store) : Option (Except ScriptError Value × Store) :=
  match s.prepare rt source with
  | (.ok program, s) =>
    let (control, s) := s.startProgram rt module program
    finish setting fuel control [] s
  | (.error e, s) => some (.error e, s)

/-- Runs a file in a module, as a source. -/
def executeFileIn (setting : Setting) (fuel : Nat) (rt : RuntimeId) (module : NamespaceId)
    (path : String) (s : Store) : Option (Except ScriptError Value × Store) :=
  match s.startFile setting.files rt module path with
  | (.ok control, s) => finish setting fuel control [] s
  | (.error e, s) => some (.error e, s)

/-- The global name of the module of a file. -/
def moduleName (path : String) : String :=
  match Path.name? path with
  | some name => Path.stem name
  | none => "main"

/-- Runs a file as a module of its own, which is bound globally to a name; the value is the module.
If it fails, the name is bound to what it was bound to before. -/
def executeFileAs (setting : Setting) (fuel : Nat) (rt : RuntimeId) (path name : String)
    (s : Store) : Option (Except ScriptError Value × Store) :=
  let (load, s) := s.beginLoad rt name
  match s.startFile setting.files rt load.module path with
  | (.ok control, s) => finish setting fuel control [.load load] s
  | (.error e, s) => some (.error e, s.undoLoad load)

/-- Runs a file as a module that is bound globally to the name of the file. -/
def executeFile (setting : Setting) (fuel : Nat) (rt : RuntimeId) (path : String) (s : Store) :
    Option (Except ScriptError Value × Store) :=
  executeFileAs setting fuel rt path (moduleName path) s

/-- Calls a function with any number of arguments. -/
def callFunction (setting : Setting) (fuel : Nat) (function : FunctionInfo) (args : List Value)
    (s : Store) : Option (Except EvalError Value × Store) :=
  run setting fuel ⟨.enter function args, [], s⟩

/-- Does what a host member does and runs what it hands over to. -/
def runEffect (setting : Setting) (fuel : Nat) (effect : Effect) (s : Store) :
    Option (Except EvalError Value × Store) :=
  let (reply, s) := s.onHeap effect
  run setting fuel ⟨.ofReply reply, [], s⟩

end Machine

/-- A host with the library and the given files, the store, and a runtime that offers the library. -/
def defaultHost (files : Files) : Setting × Store × RuntimeId :=
  let (types, registry) := Registry.initial.registerAll Library.drafts
  let (rt, s) := Store.empty.buildRuntime registry [types] [] defaultExtension
  (⟨registry, #[], files⟩, s, rt)

end HostScript
