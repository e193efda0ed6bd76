import HostScript.Numeral.Integer
import HostScript.Source.Span
import HostScript.Syntax

/-!
# EvalError — why an operation failed

A failure is a cause and the position of the operation that failed, once that is known.
`EvalError.locate` gives a failure its position on the way out; the first one it meets stays.
-/

namespace HostScript

/-- Why an operation failed. -/
inductive EvalError.Cause where
  | missingMember (name typeName : String)
  | noMatchingOverload (name typeName : String) (arity : Nat)
  | noMatchingConstructor (typeName : String) (arity : Nat)
  | wrongArgumentCount (name : String) (expected got : Nat)
  | readOnlyMember (name typeName : String)
  | operatorMismatch (op : BinaryOp) (left right : String)
  | invalidOperand (op : UnaryOp) (typeName : String)
  | divisionByZero
  | notCallable (typeName : String)
  | notAType (typeName : String)
  | notIndexable (typeName : String)
  | indexOutOfBounds (index : Int64) (length : Nat)
  | importNotFound (name path : String)
  | unreadable (path reason : String)
  /-- A failure that a host member reports in words of its own. -/
  | host (message : String)
  /-- A function was called after its runtime had been dropped. -/
  | runtimeDropped
  deriving DecidableEq, Repr

/-- The message of a cause. -/
def EvalError.Cause.message : EvalError.Cause → String
  | .missingMember name typeName => "no member `" ++ name ++ "` on " ++ typeName
  | .noMatchingOverload name typeName arity =>
    "no overload of `" ++ name ++ "` on " ++ typeName ++ " accepts these " ++ toString arity ++
      " argument(s)"
  | .noMatchingConstructor typeName arity =>
    "no constructor of " ++ typeName ++ " accepts these " ++ toString arity ++ " argument(s)"
  | .wrongArgumentCount name expected got =>
    "`" ++ name ++ "` expects " ++ toString expected ++ " argument(s), got " ++ toString got
  | .readOnlyMember name typeName =>
    "member `" ++ name ++ "` on " ++ typeName ++ " cannot be assigned"
  | .operatorMismatch op left right =>
    "operator `" ++ op.symbol ++ "` cannot be applied to " ++ left ++ " and " ++ right
  | .invalidOperand op typeName =>
    "operator `" ++ op.symbol ++ "` cannot be applied to " ++ typeName
  | .divisionByZero => "division by zero"
  | .notCallable typeName => typeName ++ " is not callable"
  | .notAType typeName => "`new` needs a type, found " ++ typeName
  | .notIndexable typeName => typeName ++ " cannot be indexed"
  | .indexOutOfBounds index length =>
    "index " ++ Numeral.wordText index ++ " out of bounds for length " ++ toString length
  | .importNotFound name path => "cannot import `" ++ name ++ "`: no global and no file " ++ path
  | .unreadable path reason => path ++ ": " ++ reason
  | .host message => message
  | .runtimeDropped => "function called after its runtime was dropped"

/-- A failed operation: why it failed and, once known, where it is written. -/
structure EvalError where
  cause : EvalError.Cause
  position? : Option Position
  deriving DecidableEq, Repr

namespace EvalError

/-- A failure whose operation is not known yet. -/
def ofCause (cause : Cause) : EvalError := ⟨cause, none⟩

/-- Gives a failure a position unless it has one: the innermost operation is the one that failed. -/
def locate (e : EvalError) (position : Position) : EvalError :=
  { e with position? := e.position?.or (some position) }

/-- The message of a failure, with its position if it is known. -/
def message (e : EvalError) : String :=
  match e.position? with
  | some position => e.cause.message ++ " at " ++ position.text
  | none => e.cause.message

theorem locate_locate (e : EvalError) (inner outer : Position) :
    (e.locate inner).locate outer = e.locate inner := by
  cases h : e.position? <;> simp [locate, h]

end EvalError

end HostScript
