import HostScript.Token.Lexer

/-!
# Token/Cursor — one token of lookahead

A cursor holds one token that has been read but not consumed.  Consuming it reads the next item of
the stream first; when that is an error the error is reported, the held token stays, and the stream
has moved on.

`Cursor.remaining` counts the tokens that can still be consumed.  `remaining_advance` says that
consuming a token other than the end lowers it, which is why a reader of a whole text ends.
-/

namespace HostScript

/-- Why the tokens of a source make no tree. -/
inductive ParseError.Cause where
  /-- A token that cannot continue what is being read. -/
  | unexpectedToken (expected : String) (found : Kind)
  /-- A number that has no value. -/
  | invalidNumber (text : String)
  deriving DecidableEq, Repr

/-- A token at which no tree could be read. -/
structure ParseError where
  cause : ParseError.Cause
  position : Position
  span : Span
  deriving DecidableEq, Repr

/-- Why a source makes no tree. -/
inductive SyntaxError where
  | lex (error : LexError)
  | parse (error : ParseError)
  deriving DecidableEq, Repr

/-- The message of an error, with its position. -/
def ParseError.message (e : ParseError) : String :=
  match e.cause with
  | .unexpectedToken expected found =>
    "expected " ++ expected ++ ", found " ++ found.name ++ " at " ++ e.position.text
  | .invalidNumber text => "invalid numeric literal `" ++ text ++ "` at " ++ e.position.text

/-- A place in a stream of tokens. -/
structure Cursor where
  /-- The token that has been read but not consumed. -/
  current : Token
  /-- What follows it, without the end. -/
  upcoming : List (Except LexError Token)
  /-- The end of the source. -/
  final : EndMark
  /-- Where the token that was consumed last stands. -/
  previous : Span

namespace Cursor

/-- A cursor on the first token of a source, unless an error comes first. -/
def ofSource (source : String) : Except LexError Cursor :=
  let stream := TokenStream.ofSource source.toList
  match stream.items with
  | [] => .ok ⟨stream.final.token, [], stream.final, .none⟩
  | .ok token :: rest => .ok ⟨token, rest, stream.final, .none⟩
  | .error e :: _ => .error e

/-- The kind of the held token. -/
def kind (c : Cursor) : Kind := c.current.kind

/-- Whether the held token is the end. -/
def atEnd (c : Cursor) : Bool := c.kind = .endOfInput

/-- Consumes the held token, unless the next item of the stream is an error. -/
def advance (c : Cursor) : Except LexError Token × Cursor :=
  let holding (token : Token) (rest : List (Except LexError Token)) : Cursor :=
    { c with current := token, upcoming := rest, previous := c.current.span }
  match c.upcoming with
  | [] => (.ok c.current, holding c.final.token [])
  | .ok token :: rest => (.ok c.current, holding token rest)
  | .error e :: rest => (.error e, { c with upcoming := rest })

/-- The error at the held token, naming what would have been accepted. -/
def unexpected (c : Cursor) (expected : String) : ParseError :=
  ⟨.unexpectedToken expected c.kind, c.current.position, c.current.span⟩

/-- Consumes the held token if it is of a kind. -/
def accept (c : Cursor) (kind : Kind) : Except LexError Bool × Cursor :=
  if c.kind = kind then
    let (result, after) := c.advance
    (result.map fun _ => true, after)
  else (.ok false, c)

/-- Consumes the held token if it is of a kind and reports it otherwise. -/
def expect (c : Cursor) (kind : Kind) : Except SyntaxError Token × Cursor :=
  if c.kind = kind then
    let (result, after) := c.advance
    (result.mapError .lex, after)
  else (.error (.parse (c.unexpected kind.name)), c)

/-- The span from a place up to the token that was consumed last. -/
def spanFrom (c : Cursor) (start : Span) : Span := start.merge c.previous

/-- The number of tokens that can still be consumed before the end. -/
def remaining (c : Cursor) : Nat := c.upcoming.length + if c.kind = .endOfInput then 0 else 1

theorem remaining_advance {c after : Cursor} {token : Token} (h : c.advance = (.ok token, after))
    (held : c.kind ≠ .endOfInput) : after.remaining < c.remaining := by
  simp only [advance] at h
  split at h
  next empty =>
    obtain ⟨-, rfl⟩ := Prod.mk.inj h
    simp [remaining, kind, EndMark.token] at held ⊢
    simp [held]
  next next rest filled =>
    obtain ⟨-, rfl⟩ := Prod.mk.inj h
    have last : (if next.kind = .endOfInput then 0 else 1) ≤ 1 := by split <;> omega
    rw [remaining, remaining, if_neg held, filled, List.length_cons, kind]
    exact Nat.add_lt_add_left (Nat.lt_succ_of_le last) rest.length
  next => cases h

end Cursor

end HostScript
