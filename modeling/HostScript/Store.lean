import HostScript.Code
import HostScript.Dispatch.Rule
import HostScript.Heap

/-!
# Store — everything that changes while scripts run

Besides the heap, the activations of scripts, the functions that can be called, and the runtimes.
These are out of reach for members of the host.
-/

namespace HostScript

/-- The variables of an activation of a module, function or lambda, and the activation around it. -/
structure Frame where
  layout : Layout
  slots : Array Value
  parent? : Option FrameId
  deriving Repr, Inhabited

/-- What can be called: a function or lambda of a script, with the activation, module and runtime it
was made in, or a function of the host, by its place among those. -/
inductive Callable where
  | script (template : Template Code) (frame : FrameId) (module : NamespaceId) (runtime : RuntimeId)
  | native (name : String) (arity : Nat) (index : Nat)
  deriving Repr, Inhabited

/-- The name of a function. -/
def Callable.name : Callable → String
  | script template _ _ _ => template.name
  | native name _ _ => name

/-- The number of arguments a function takes. -/
def Callable.arity : Callable → Nat
  | script template _ _ _ => template.arity
  | native _ arity _ => arity

/-- What a host offers to the scripts of one runtime, and what has been decided for their
operations. -/
structure Runtime where
  /-- The root of the tree of global names. -/
  globals : NamespaceId
  /-- The types that describe values without a type of their own, in the order of loading. -/
  bound : List TypeInfo
  /-- The instances whose methods can be called by name, in order. -/
  instances : List HostObject
  /-- The extension of the files that imports look for. -/
  extension : String
  rules : Rules
  /-- Whether the host still holds the runtime. -/
  alive : Bool
  deriving Repr, Inhabited

/-- The heap and what only the machine changes. -/
structure Store extends Heap where
  frames : Array Frame
  functions : Array Callable
  runtimes : Array Runtime
  deriving Repr, Inhabited

namespace Store

/-- Nothing has been made. -/
def empty : Store := ⟨.empty, #[], #[], #[]⟩

/-! ## The heap of a store -/

/-- Works on the heap. -/
def onHeap {α : Type} (s : Store) (f : Heap → α × Heap) : α × Store :=
  let (result, heap) := f s.toHeap
  (result, { s with toHeap := heap })

/-- Changes the heap. -/
def changeHeap (s : Store) (f : Heap → Heap) : Store := { s with toHeap := f s.toHeap }

/-- A new namespace without names. -/
def newSpace (s : Store) : NamespaceId × Store := s.onHeap (·.newSpace)

/-- Binds a name in a namespace. -/
def bind (s : Store) (id : NamespaceId) (name : String) (value : Value) : Store :=
  s.changeHeap (·.bind id name value)

/-- Unbinds a name in a namespace. -/
def unbind (s : Store) (id : NamespaceId) (name : String) : Store :=
  s.changeHeap (·.unbind id name)

/-! ## Frames -/

/-- A new activation with a slot for each variable at least, whose first slots hold the given
values. -/
def newFrame (s : Store) (layout : Layout) (values : List Value) (parent? : Option FrameId) :
    FrameId × Store :=
  let missing := layout.slots.length - values.length
  let slots := (values ++ List.replicate missing Value.null).toArray
  (⟨s.frames.size⟩, { s with frames := s.frames.push ⟨layout, slots, parent?⟩ })

/-- The activation a number of levels further out. -/
def outer? (s : Store) (id : FrameId) : Nat → Option FrameId
  | 0 => some id
  | depth + 1 => do s.outer? (← (← s.frames[id.index]?).parent?) depth

/-- The value of a variable, seen from an activation. -/
def readSlot (s : Store) (id : FrameId) (slot : SlotRef) : Value :=
  ((s.outer? id slot.depth).bind fun frame => do
    (← s.frames[frame.index]?).slots[slot.index]?).getD .null

/-- Changes a variable, seen from an activation. -/
def writeSlot (s : Store) (id : FrameId) (slot : SlotRef) (value : Value) : Store :=
  match s.outer? id slot.depth with
  | some frame =>
    { s with frames := s.frames.modify frame.index fun f =>
        { f with slots := f.slots.setIfInBounds slot.index value } }
  | none => s

/-! ## Functions -/

/-- A new function. -/
def newFunction (s : Store) (callable : Callable) : FunctionInfo × Store :=
  (⟨⟨s.functions.size⟩, callable.name, callable.arity⟩,
    { s with functions := s.functions.push callable })

/-- What a function is. -/
def function? (s : Store) (id : FunctionId) : Option Callable := s.functions[id.index]?

/-! ## Runtimes -/

/-- A new runtime. -/
def newRuntime (s : Store) (runtime : Runtime) : RuntimeId × Store :=
  (⟨s.runtimes.size⟩, { s with runtimes := s.runtimes.push runtime })

/-- A runtime. -/
def runtime (s : Store) (id : RuntimeId) : Runtime := s.runtimes[id.index]?.getD default

/-- Changes a runtime. -/
def changeRuntime (s : Store) (id : RuntimeId) (f : Runtime → Runtime) : Store :=
  { s with runtimes := s.runtimes.modify id.index f }

/-- Changes the rules of a runtime. -/
def changeRules (s : Store) (id : RuntimeId) (f : Rules → Rules) : Store :=
  s.changeRuntime id fun runtime => { runtime with rules := f runtime.rules }

end Store

end HostScript
