import HostScript.Numeral.Fraction
import HostScript.Syntax
import HostScript.Text.Quoted

/-!
# Syntax/Outline — trees as indented text

An outline is a text, or parts between an opening and a closing text, each part on lines of its own
that are indented one level further.
-/

namespace HostScript

/-- A text with labelled parts that are written on lines of their own. -/
inductive Outline where
  | leaf (text : String)
  | group (opening : String) (parts : List (String × Outline)) (closing : String)
  deriving Repr, Inhabited

namespace Outline

/-- The blanks before a line. -/
def indentation (depth : Nat) : String := String.ofList (List.replicate (4 * depth) ' ')

mutual

/-- The text of an outline whose first line stands at a depth. -/
def render (depth : Nat) : Outline → String
  | leaf text => text
  | group opening [] closing => opening ++ closing
  | group opening (first :: rest) closing =>
    opening ++ "\n" ++ renderParts (depth + 1) (first :: rest) ++ indentation depth ++ closing

/-- The lines of parts at a depth. -/
def renderParts (depth : Nat) : List (String × Outline) → String
  | [] => ""
  | (label, part) :: rest =>
    indentation depth ++ label ++ render depth part ++ ",\n" ++ renderParts depth rest

end

/-- A name with parts in order. -/
def call (name : String) (parts : List Outline) : Outline :=
  group (name ++ "(") (parts.map fun part => ("", part)) ")"

/-- A name with parts that have names of their own. -/
def record (name : String) (fields : List (String × Outline)) : Outline :=
  group (name ++ " \x7b") (fields.map fun (label, part) => (label ++ ": ", part)) "\x7d"

/-- Parts in order. -/
def listed (parts : List Outline) : Outline := group "[" (parts.map fun part => ("", part)) "]"

/-- A part that may be missing. -/
def optional : Option Outline → Outline
  | none => leaf "None"
  | some part => call "Some" [part]

/-- A text in quotes. -/
def quoted (text : String) : Outline := leaf (Text.quoted text)

end Outline

/-- The name of an operator. -/
def BinaryOp.outline : BinaryOp → Outline
  | add => .leaf "Add"
  | sub => .leaf "Sub"
  | mul => .leaf "Mul"
  | div => .leaf "Div"
  | mod => .leaf "Mod"
  | pow => .leaf "Pow"
  | eq => .leaf "Eq"
  | notEq => .leaf "NotEq"
  | lt => .leaf "Lt"
  | ltEq => .leaf "LtEq"
  | gt => .leaf "Gt"
  | gtEq => .leaf "GtEq"
  | and => .leaf "And"
  | or => .leaf "Or"

/-- The name of an operator. -/
def UnaryOp.outline : UnaryOp → Outline
  | neg => .leaf "Neg"
  | not => .leaf "Not"

/-- The kind of a constant and the constant. -/
def Literal.outline : Literal → Outline
  | bool b => .call "Bool" [.leaf (if b then "true" else "false")]
  | int i => .call "Int" [.leaf (Numeral.wordText i)]
  | float x => .call "Float" [.leaf (Numeral.fractionText Numeral.explicitStyle x)]
  | text t => .call "Str" [.quoted t]

/-- The name of the way a member is written. -/
def MemberKind.outline : MemberKind → Outline
  | get => .leaf "Get"
  | methodCall => .leaf "MethodCall"

namespace Node

/-- A node of a kind with the span it has. -/
def spanned (kind : Outline) (span : Span) : Outline :=
  .record "Node" [("kind", kind), ("span", .leaf span.text)]

mutual

/-- The outline of a tree. -/
def outline : Node → Outline
  | .literal span value => spanned (.call "Constant" [value.outline]) span
  | .named span name => spanned (.call "Named" [.quoted name]) span
  | .member span target name kind =>
    spanned (.record "Member"
      [("target", outline target), ("name", .quoted name), ("kind", kind.outline)]) span
  | .index span target place =>
    spanned (.record "Index" [("target", outline target), ("index", outline place)]) span
  | .binary span op left right =>
    spanned (.record "Binary"
      [("op", op.outline), ("left", outline left), ("right", outline right)]) span
  | .unary span op operand =>
    spanned (.record "Unary" [("op", op.outline), ("operand", outline operand)]) span
  | .assign span target value =>
    spanned (.record "Assign" [("target", outline target), ("value", outline value)]) span
  | .call span callee args =>
    spanned (.record "Call" [("callee", outline callee), ("args", .listed (outlines args))]) span
  | .create span target args =>
    spanned (.record "New" [("target", outline target), ("args", .listed (outlines args))]) span
  | .declare span name init =>
    spanned (.record "Var" [("name", .quoted name), ("init", outlineOptional init)]) span
  | .function span name params body =>
    spanned (.record "FunctionDef" [("name", .quoted name),
      ("params", .listed (params.map .quoted)), ("body", outline body)]) span
  | .lambda span params body =>
    spanned (.record "Lambda"
      [("params", .listed (params.map .quoted)), ("body", outline body)]) span
  | .choose span branches otherwise =>
    spanned (.record "If" [("branches", .listed (outlineBranches branches)),
      ("otherwise", outlineOptional otherwise)]) span
  | .loop span body => spanned (.record "Loop" [("body", outline body)]) span
  | .leave span value => spanned (.record "Break" [("value", outlineOptional value)]) span
  | .give span value => spanned (.record "Return" [("value", outlineOptional value)]) span
  | .importFrom span path renamed =>
    spanned (.record "Import" [("path", .listed (path.map .quoted)),
      ("alias", .optional (renamed.map .quoted))]) span
  | .plain span inner => spanned (.call "ExprStmt" [outline inner]) span
  | .block span statements => spanned (.call "Block" [.listed (outlines statements)]) span
  | .empty span => spanned (.leaf "Null") span

/-- The outlines of trees. -/
def outlines : List Node → List Outline
  | [] => []
  | first :: rest => outline first :: outlines rest

/-- The outline of a tree that may be missing. -/
def outlineOptional : Option Node → Outline
  | none => .optional none
  | some node => .optional (some (outline node))

/-- The outlines of tests and bodies. -/
def outlineBranches : List (Node × Node) → List Outline
  | [] => []
  | (test, body) :: rest =>
    .record "IfBranch" [("test", outline test), ("body", outline body)] :: outlineBranches rest

end

end Node

end HostScript
