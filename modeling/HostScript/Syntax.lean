import HostScript.Source.Span

/-!
# Syntax — the tree of a script

A node is one construct of the language together with the span it was read from.  Statements and
expressions are nodes alike: conditionals and loops have values, and the body of a lambda is a
statement inside an expression.
-/

namespace HostScript

/-- The operators with two operands. -/
inductive BinaryOp where
  | add | sub | mul | div | mod | pow
  | eq | notEq | lt | ltEq | gt | gtEq
  /-- Conjunction; bitwise on integers. -/
  | and
  /-- Disjunction; bitwise on integers. -/
  | or
  deriving DecidableEq, Repr

namespace BinaryOp

/-- The symbol an operator is shown with, and the name of its dispatch rule. -/
def symbol : BinaryOp → String
  | add => "+"
  | sub => "-"
  | mul => "*"
  | div => "/"
  | mod => "%"
  | pow => "^"
  | eq => "=="
  | notEq => "!="
  | lt => "<"
  | ltEq => "<="
  | gt => ">"
  | gtEq => ">="
  | and => "&&"
  | or => "||"

/-- The operator of a symbol. -/
def ofSymbol? : String → Option BinaryOp
  | "+" => some add
  | "-" => some sub
  | "*" => some mul
  | "/" => some div
  | "%" => some mod
  | "^" => some pow
  | "==" => some eq
  | "!=" => some notEq
  | "<" => some lt
  | "<=" => some ltEq
  | ">" => some gt
  | ">=" => some gtEq
  | "&&" => some and
  | "||" => some or
  | _ => none

@[simp] theorem ofSymbol?_symbol (op : BinaryOp) : ofSymbol? op.symbol = some op := by
  cases op <;> rfl

end BinaryOp

/-- The operators with one operand. -/
inductive UnaryOp where
  | neg
  /-- Negation; the bitwise complement on integers. -/
  | not
  deriving DecidableEq, Repr

namespace UnaryOp

/-- The symbol an operator is shown with, and the name of its dispatch rule. -/
def symbol : UnaryOp → String
  | neg => "-"
  | not => "!"

/-- The operator of a symbol. -/
def ofSymbol? : String → Option UnaryOp
  | "-" => some neg
  | "!" => some not
  | _ => none

@[simp] theorem ofSymbol?_symbol (op : UnaryOp) : ofSymbol? op.symbol = some op := by
  cases op <;> rfl

end UnaryOp

/-- A constant as it is written. -/
inductive Literal where
  | bool (value : Bool)
  | int (value : Int64)
  | float (value : Float)
  | text (value : String)
  deriving Repr

/-- How a member access is written: alone, or directly before arguments. -/
inductive MemberKind where
  | get
  | methodCall
  deriving DecidableEq, Repr

/-- A construct of the language with the span it was read from. -/
inductive Node where
  | literal (span : Span) (value : Literal)
  | named (span : Span) (name : String)
  | member (span : Span) (target : Node) (name : String) (kind : MemberKind)
  | index (span : Span) (target index : Node)
  | binary (span : Span) (op : BinaryOp) (left right : Node)
  | unary (span : Span) (op : UnaryOp) (operand : Node)
  | assign (span : Span) (target value : Node)
  | call (span : Span) (callee : Node) (args : List Node)
  | create (span : Span) (target : Node) (args : List Node)
  | declare (span : Span) (name : String) (init : Option Node)
  | function (span : Span) (name : String) (params : List String) (body : Node)
  | lambda (span : Span) (params : List String) (body : Node)
  /-- Tests with their bodies in order, and what is done when all of them fail. -/
  | choose (span : Span) (branches : List (Node × Node)) (otherwise : Option Node)
  | loop (span : Span) (body : Node)
  | leave (span : Span) (value : Option Node)
  | give (span : Span) (value : Option Node)
  | importFrom (span : Span) (path : List String) (alias? : Option String)
  | block (span : Span) (statements : List Node)
  /-- An expression that stands as a statement. -/
  | plain (span : Span) (expression : Node)
  /-- A lone terminator. -/
  | empty (span : Span)
  deriving Repr, Inhabited

namespace Node

/-- The span a node was read from. -/
def span : Node → Span
  | literal s _ | named s _ | member s _ _ _ | index s _ _ | binary s _ _ _ | unary s _ _
  | assign s _ _ | call s _ _ | create s _ _ | declare s _ _ | function s _ _ _ | lambda s _ _
  | choose s _ _ | loop s _ | leave s _ | give s _ | importFrom s _ _ | block s _ | plain s _
  | empty s => s

/-- The constructs that can be assigned to: names, members and indexed places. -/
def isAssignable : Node → Bool
  | named _ _ | member _ _ _ _ | index _ _ _ => true
  | _ => false

end Node

end HostScript
