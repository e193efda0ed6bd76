import HostScript.Dispatch.Signature
import HostScript.Value.Arithmetic

/-!
# Dispatch/Rule — what has been decided for an operation

The rule of a signature is a list of branches.  A branch says what to do for arguments of certain
shapes; it is added when arguments of these shapes are first met, after the branches there are, and
never changed.
-/

namespace HostScript

/-- Whether a host member is given the target of the operation as its receiver, or none because it
is static. -/
inductive Receiver where
  | target
  | static
  deriving DecidableEq, Repr

/-- A method of an injected instance, by its place among the methods of the instance's type. -/
structure BoundMethod where
  holder : HostObject
  index : Nat
  deriving DecidableEq, Repr

/-- What an operation does for arguments of certain shapes.  Numbers are places in the member lists
of the type next to them. -/
inductive Action where
  | namespaceGet
  | namespaceSet
  | namespaceInvoke
  /-- The module's name, else the global one. -/
  | lookup
  /-- Calls what the module, else the globals bind the name to, else the method found. -/
  | callNamed (fallback : Option BoundMethod)
  /-- Calls the target. -/
  | callValue
  | getProperty (type : TypeInfo) (index : Nat) (receiver : Receiver)
  | setProperty (type : TypeInfo) (index : Nat)
  | invokeMethod (type : TypeInfo) (index : Nat) (receiver : Receiver)
  | construct (type : TypeInfo) (index : Nat)
  | getIndexer (type : TypeInfo)
  | setIndexer (type : TypeInfo)
  | listGet
  | listSet
  | textGet
  | namespaceGetIndex
  | namespaceSetIndex
  | binary (op : BinaryOp) (conversion : Conversion)
  | unary (op : UnaryOp)
  /-- Nothing fits these shapes. -/
  | fail (cause : EvalError.Cause)
  deriving DecidableEq, Repr

/-- What to do for arguments of the given shapes, the target first. -/
structure Branch where
  guard : List Shape
  action : Action
  deriving DecidableEq, Repr

/-- The rules of a runtime by signature, each signature once, in the order of first request. -/
structure Rules where
  entries : List (Signature × List Branch)
  deriving Repr, Inhabited

namespace Rules

/-- No signature has been requested. -/
def empty : Rules := ⟨[]⟩

/-- The branches of a signature; none if it has not been requested. -/
def branches (rules : Rules) (s : Signature) : List Branch :=
  ((rules.entries.find? (·.1 = s)).map (·.2)).getD []

/-- Requests the rule of a signature. -/
def request (rules : Rules) (s : Signature) : Rules :=
  if rules.entries.any (·.1 = s) then rules else ⟨rules.entries ++ [(s, [])]⟩

/-- The action of the branch for the given shapes. -/
def find? (rules : Rules) (s : Signature) (guard : List Shape) : Option Action :=
  ((rules.branches s).find? (·.guard = guard)).map (·.action)

/-- Adds a branch after the others of its signature. -/
def add (rules : Rules) (s : Signature) (branch : Branch) : Rules :=
  ⟨rules.entries.map fun e => if e.1 = s then (e.1, e.2 ++ [branch]) else e⟩

/-- How many signatures have been requested for an operation, and how many branches they have. -/
def count (rules : Rules) (op : Operation) : Nat × Nat :=
  let of := rules.entries.filter (·.1.operation = op)
  (of.length, of.foldr (fun e n => e.2.length + n) 0)

end Rules

end HostScript
