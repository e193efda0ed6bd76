import HostScript.Syntax

/-!
# Dispatch/Signature — the dynamic operations

An operation whose meaning depends on the values at hand is known by its signature: what is done,
under which name, with how many arguments.  All places of a program with one signature share what
has been decided for it.
-/

namespace HostScript

/-- What a dynamic operation does. -/
inductive Operation where
  | getMember
  | setMember
  /-- Reading a name that no scope declares. -/
  | lookup
  /-- Calling a value. -/
  | invoke
  | invokeMember
  /-- Calling a name that no scope declares. -/
  | call
  | getIndex
  | setIndex
  | binary
  | unary
  | createInstance
  deriving DecidableEq, Repr

namespace Operation

/-- The operations in the order in which they are listed. -/
def all : List Operation :=
  [getMember, setMember, lookup, invoke, invokeMember, call, getIndex, setIndex, binary, unary,
    createInstance]

theorem mem_all (op : Operation) : op ∈ all := by cases op <;> decide

/-- The name of an operation. -/
def name : Operation → String
  | getMember => "get-member"
  | setMember => "set-member"
  | lookup => "lookup"
  | invoke => "invoke"
  | invokeMember => "invoke-member"
  | call => "call"
  | getIndex => "get-index"
  | setIndex => "set-index"
  | binary => "binary"
  | unary => "unary"
  | createInstance => "create-instance"

end Operation

/-- A dynamic operation.  The name is the member name as it is written or the symbol of an operator,
and empty for other operations; the arity counts the arguments after the target. -/
structure Signature where
  operation : Operation
  name : String
  arity : Nat
  deriving DecidableEq, Repr

namespace Signature

/-- Reading a member. -/
def getMember (name : String) : Signature := ⟨.getMember, name, 0⟩

/-- Assigning a member. -/
def setMember (name : String) : Signature := ⟨.setMember, name, 1⟩

/-- Reading a name that no scope declares. -/
def lookup (name : String) : Signature := ⟨.lookup, name, 0⟩

/-- Calling a value. -/
def invoke (arity : Nat) : Signature := ⟨.invoke, "", arity⟩

/-- Calling a member. -/
def invokeMember (name : String) (arity : Nat) : Signature := ⟨.invokeMember, name, arity⟩

/-- Calling a name that no scope declares. -/
def call (name : String) (arity : Nat) : Signature := ⟨.call, name, arity⟩

/-- Reading at an index. -/
def getIndex : Signature := ⟨.getIndex, "", 1⟩

/-- Assigning at an index. -/
def setIndex : Signature := ⟨.setIndex, "", 2⟩

/-- Applying an operator to two operands. -/
def binary (op : BinaryOp) : Signature := ⟨.binary, op.symbol, 1⟩

/-- Applying an operator to one operand. -/
def unary (op : UnaryOp) : Signature := ⟨.unary, op.symbol, 0⟩

/-- Creating an instance of a host type. -/
def createInstance (arity : Nat) : Signature := ⟨.createInstance, "", arity⟩

/-- The text of a signature: the operation, the name if there is one, and the arity. -/
def text (s : Signature) : String :=
  if s.name = "" then s.operation.name ++ "/" ++ toString s.arity
  else s.operation.name ++ " `" ++ s.name ++ "`/" ++ toString s.arity

end Signature

end HostScript
