import HostScript.ScriptError

/-!
# Report — errors shown against their source

A report names what failed and, if the error has a position, the place in the source that it is
about.  The place is found as a range of bytes; the report shows the line and column that the start of
this range has when it is read as a number of characters, and none where that leads out of the source.
-/

namespace HostScript

/-- An error as it is shown. -/
structure Report where
  header : String
  /-- The path, line and column of the place that the error is about. -/
  location? : Option String
  deriving DecidableEq, Repr

namespace Report

/-- What follows the first lines of a text. -/
def dropLines : Nat → List Char → List Char
  | 0, cs => cs
  | n + 1, cs => dropLines n ((cs.dropWhile (· ≠ '\n')).drop 1)

/-- The byte offset of a position; the end of the source for one outside of it. -/
def offsetOf (source : List Char) (position : Position) : Nat :=
  let rest := dropLines (position.line - 1) source
  Text.byteLength source - Text.byteLength (rest.drop (position.column - 1))

/-- The range of bytes that an error is about. -/
def range? (source : List Char) (e : ScriptError) : Option (Nat × Nat) :=
  let length := Text.byteLength source
  match e.span? with
  | some span =>
    let stop := min (max span.stop (span.start + 1)) length
    some (min span.start stop, stop)
  | none =>
    e.position?.map fun position =>
      let start := offsetOf source position
      (start, max (min (start + 1) length) start)

/-- A character that ends a line of a report. -/
def endsLine (c : Char) : Bool :=
  ['\n', '\r', '\u000b', '\u000c', '\u0085', '\u2028', '\u2029'].contains c

/-- Where the lines after the first one start, in characters; `place` counts those before the text.  A
carriage return and a line feed end one line, and no line follows the end of the source. -/
def lineStarts (place : Nat) : List Char → List Nat
  | [] => []
  | [_] => []
  | ['\r', '\n'] => []
  | '\r' :: '\n' :: rest => (place + 2) :: lineStarts (place + 2) rest
  | c :: rest =>
    if endsLine c then (place + 1) :: lineStarts (place + 1) rest else lineStarts (place + 1) rest

/-- The line and column of a range, read as a range of characters. -/
def label? (source : List Char) (range : Nat × Nat) : Option Position :=
  let (start, stop) := range
  let length := source.length
  if length < start || (start < stop && length < stop - 1) then none
  else
    let before := (lineStarts 0 source).filter (· ≤ start)
    some ⟨before.length + 1, start - before.getLast?.getD 0 + 1⟩

/-- What an error is called after the step in which it was met. -/
def phase : ScriptError → String
  | .lex _ => "lex error"
  | .parse _ => "syntax error"
  | .compile _ => "invalid program"
  | .eval _ => "runtime error"

/-- The message of an error as it is shown: with its position only for errors of reading. -/
def shownMessage : ScriptError → String
  | .lex e => e.message
  | .parse e => e.message
  | .compile e => e.cause.message
  | .eval e => e.cause.message

/-- The report of an error in a source. -/
def ofError (path : String) (source : String) (e : ScriptError) : Report :=
  let cs := source.toList
  let label := e.position?.bind fun _ => (range? cs e).bind (label? cs)
  ⟨"Error: " ++ phase e ++ ": " ++ shownMessage e,
    label.map fun position => path ++ ":" ++ position.text⟩

end Report

end HostScript
