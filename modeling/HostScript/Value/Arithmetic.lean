import HostScript.EvalError
import HostScript.Numeral.Fraction
import HostScript.Value

/-!
# Value/Arithmetic — operators on values

An operator has a meaning for two operands of one kind; before that, one of two operands of
different kinds may be converted to the kind of the other.  Which one is converted depends on the
kinds alone (`Conversion.between`).  Operands that stay of different kinds can only be compared for
equality.
-/

namespace HostScript

/-! ## Conversion -/

/-- What the implicit conversion of an operand makes of it. -/
inductive Widening where
  | float
  | text
  deriving DecidableEq, Repr

/-- Which operand is converted to the kind of the other. -/
inductive Conversion where
  | none
  | left (w : Widening)
  | right (w : Widening)
  deriving DecidableEq, Repr

/-- The conversion from one kind of values to another: integers become floats, and truth values and
numbers become texts. -/
def Widening.of? : Shape → Shape → Option Widening
  | .int, .float => some .float
  | .int, .text | .float, .text | .bool, .text => some .text
  | _, _ => none

/-- The value after conversion. -/
def Value.widen : Widening → Value → Value
  | .float, .int i => .float i.toFloat
  | .text, .int i => .text (Numeral.wordText i)
  | .text, .float x => .text (Numeral.fractionText Numeral.plainStyle x)
  | .text, .bool b => .text (Value.truthText b)
  | _, v => v

/-- The conversion for two operands, of the left one if both could be converted. -/
def Conversion.between (left right : Shape) : Conversion :=
  if left = right then .none
  else
    match Widening.of? left right, Widening.of? right left with
    | some w, _ => .left w
    | .none, some w => .right w
    | .none, .none => .none

/-- The operands after conversion. -/
def Conversion.apply : Conversion → Value → Value → Value × Value
  | none, a, b => (a, b)
  | left w, a, b => (a.widen w, b)
  | right w, a, b => (a, b.widen w)

/-! ## Operators on operands of one kind -/

namespace BinaryOp

/-- What a comparison says of two operands in a given order; none for the other operators. -/
def holdsFor : BinaryOp → Ordering → Option Bool
  | eq, o => some o.isEq
  | notEq, o => some (!o.isEq)
  | lt, o => some o.isLT
  | ltEq, o => some o.isLE
  | gt, o => some o.isGT
  | gtEq, o => some o.isGE
  | _, _ => none

/-- The failure of an operator that has no meaning for its operands. -/
def mismatch (op : BinaryOp) (a b : Value) : EvalError.Cause :=
  .operatorMismatch op a.typeName b.typeName

/-- The answer of a comparison, or a failure for the other operators. -/
def compareAs (op : BinaryOp) (o : Ordering) (a b : Value) : Except EvalError.Cause Value :=
  match op.holdsFor o with
  | some answer => .ok (.bool answer)
  | none => .error (op.mismatch a b)

/-- An operator on integers.  Sums, differences and products are taken modulo `2 ^ 64`, and a
quotient is truncated. -/
def onInt (op : BinaryOp) (a b : Int64) : Except EvalError.Cause Value :=
  match op with
  | add => .ok (.int (a + b))
  | sub => .ok (.int (a - b))
  | mul => .ok (.int (a * b))
  | div => if b = 0 then .error .divisionByZero else .ok (.int (a / b))
  | mod => if b = 0 then .error .divisionByZero else .ok (.int (a % b))
  | and => .ok (.int (a &&& b))
  | or => .ok (.int (a ||| b))
  | op => op.compareAs (compare a.toInt b.toInt) (.int a) (.int b)

/-- An operator on floats. -/
def onFloat (op : BinaryOp) (a b : Float) : Except EvalError.Cause Value :=
  match op with
  | add => .ok (.float (a + b))
  | sub => .ok (.float (a - b))
  | mul => .ok (.float (a * b))
  | div => .ok (.float (a / b))
  | mod => .ok (.float (Numeral.remainder a b))
  | pow => .ok (.float (a ^ b))
  | eq => .ok (.bool (a == b))
  | notEq => .ok (.bool (a != b))
  | lt => .ok (.bool (a < b))
  | ltEq => .ok (.bool (a ≤ b))
  | gt => .ok (.bool (b < a))
  | gtEq => .ok (.bool (b ≤ a))
  | and | or => .error (op.mismatch (.float a) (.float b))

/-- An operator on truth values. -/
def onBool (op : BinaryOp) (a b : Bool) : Except EvalError.Cause Value :=
  match op with
  | eq => .ok (.bool (a == b))
  | notEq => .ok (.bool (a != b))
  | and => .ok (.bool (a && b))
  | or => .ok (.bool (a || b))
  | op => .error (op.mismatch (.bool a) (.bool b))

/-- An operator on texts: they are joined, and compared by their code points. -/
def onText (op : BinaryOp) (a b : String) : Except EvalError.Cause Value :=
  match op with
  | add => .ok (.text (a ++ b))
  | op => op.compareAs (compare a b) (.text a) (.text b)

/-- An operator on two operands. -/
def evaluate (op : BinaryOp) : Value → Value → Except EvalError.Cause Value
  | .int a, .int b => op.onInt a b
  | .float a, .float b => op.onFloat a b
  | .bool a, .bool b => op.onBool a b
  | .text a, .text b => op.onText a b
  | a, b =>
    match op with
    | eq => .ok (.bool (a.same b))
    | notEq => .ok (.bool (!a.same b))
    | op => .error (op.mismatch a b)

end BinaryOp

/-- An operator on one operand: the opposite of a number, and the other truth value or all other bits
of an integer. -/
def UnaryOp.evaluate : UnaryOp → Value → Except EvalError.Cause Value
  | .neg, .int i => .ok (.int (-i))
  | .neg, .float x => .ok (.float (-x))
  | .not, .bool b => .ok (.bool (!b))
  | .not, .int i => .ok (.int (~~~i))
  | op, v => .error (.invalidOperand op v.typeName)

end HostScript
