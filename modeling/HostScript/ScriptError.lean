import HostScript.Code.Compile
import HostScript.EvalError
import HostScript.Syntax.Parser

/-!
# ScriptError — why a source could not be run

A source fails while it is read, while its tree is made or compiled, or while it runs.  Only a
failure of the last kind may be without a position, and it has no span.
-/

namespace HostScript

/-- Why a source could not be run. -/
inductive ScriptError where
  | lex (error : LexError)
  | parse (error : ParseError)
  | compile (error : CompileError)
  | eval (error : EvalError)
  deriving DecidableEq, Repr

namespace ScriptError

/-- An error met before compiling. -/
def ofSyntax : SyntaxError → ScriptError
  | .lex e => lex e
  | .parse e => parse e

/-- The message of an error, with its position if it is known. -/
def message : ScriptError → String
  | lex e => e.message
  | parse e => e.message
  | compile e => e.message
  | eval e => e.message

/-- The position of an error. -/
def position? : ScriptError → Option Position
  | lex e => some e.position
  | parse e => some e.position
  | compile e => some e.position
  | eval e => e.position?

/-- The part of the source that an error is about. -/
def span? : ScriptError → Option Span
  | lex e => some e.span
  | parse e => some e.span
  | compile e => some e.span
  | eval _ => none

/-- The failure of an import whose file fails: a source that cannot be run at all is a failure of the
host. -/
def toEval : ScriptError → EvalError
  | eval e => e
  | e => .ofCause (.host e.message)

end ScriptError

end HostScript
