import HostScript.Text.Blank
import HostScript.Text.Letter
import HostScript.Text.Quoted
import HostScript.Token

/-!
# Token/Lexer — reading a source into tokens

A lexeme is what the next characters of a source spell, said without regard to where they stand; a
scanner keeps the place.  Reading goes on after an error, with the characters that were at fault
passed over, so every source has a stream: its tokens and errors in order, and the end.

`length_rest_pastTrivia` and `length_rest_next?` say that a scanner only moves on, which ends the
stream.
-/

namespace HostScript

open Text (isBlank isDigit isLetter isNumber)

/-! ## Lexemes -/

/-- What the next characters spell: a kind with its text, or a fault; and how many characters
beyond the first it takes. -/
structure Lexeme where
  outcome : Except LexError.Cause (Kind × List Char)
  more : Nat

namespace Lexeme

/-- A character that starts a word. -/
def startsWord (c : Char) : Bool := isLetter c || c == '_' || c == '@'

/-- A character that continues a word. -/
def continuesWord (c : Char) : Bool := isLetter c || isNumber c || c == '_'

/-- A keyword or an identifier that starts with `c`. -/
def word (c : Char) (rest : List Char) : Lexeme :=
  let tail := rest.takeWhile continuesWord
  let chars := c :: tail
  ⟨.ok ((Kind.ofKeyword? (String.ofList chars)).getD .identifier, chars), tail.length⟩

/-- The point and digits of a number: a point counts only before a digit. -/
def fractionPart : List Char → List Char
  | '.' :: d :: rest => if isDigit d then '.' :: (d :: rest).takeWhile isDigit else []
  | _ => []

/-- The sign and digits after an exponent marker. -/
def exponentTail : List Char → List Char
  | '+' :: rest => '+' :: rest.takeWhile isDigit
  | '-' :: rest => '-' :: rest.takeWhile isDigit
  | rest => rest.takeWhile isDigit

/-- The exponent of a number.  The marker always belongs to the number, with or without digits. -/
def exponentPart : List Char → List Char
  | 'e' :: rest => 'e' :: exponentTail rest
  | 'E' :: rest => 'E' :: exponentTail rest
  | _ => []

/-- The letter that may close a number. -/
def suffixPart : List Char → List Char
  | 'f' :: _ => ['f']
  | 'F' :: _ => ['F']
  | _ => []

/-- A number that starts with the digit `c`; without fraction, exponent and suffix it is whole. -/
def number (c : Char) (rest : List Char) : Lexeme :=
  let whole := rest.takeWhile isDigit
  let rest := rest.drop whole.length
  let fraction := fractionPart rest
  let rest := rest.drop fraction.length
  let exponent := exponentPart rest
  let rest := rest.drop exponent.length
  let extra := fraction ++ exponent ++ suffixPart rest
  ⟨.ok (if extra.isEmpty then .integer else .fraction, c :: whole ++ extra),
    whole.length + extra.length⟩

/-- A string in the given quotes.  There are no escapes: it ends at the next such quote. -/
def quotedText (quote : Char) (rest : List Char) : Lexeme :=
  let body := rest.takeWhile (· != quote)
  if body.length < rest.length then ⟨.ok (.text, body), body.length + 1⟩
  else ⟨.error .unterminatedText, rest.length⟩

/-- An operator of two characters if there is one, else of one. -/
def operator (c : Char) (rest : List Char) : Lexeme :=
  match rest.head?.bind fun next => (Kind.ofPair? c next).map fun kind => (kind, next) with
  | some (kind, next) => ⟨.ok (kind, [c, next]), 1⟩
  | none =>
    match Kind.ofChar? c with
    | some kind => ⟨.ok (kind, [c]), 0⟩
    | none => ⟨.error (.invalidCharacter c), 0⟩

/-- The lexeme that starts with `c`, a character that is not blank. -/
def ofChars (c : Char) (rest : List Char) : Lexeme :=
  if startsWord c then word c rest
  else if isDigit c then number c rest
  else if c == '"' || c == '\'' then quotedText c rest
  else operator c rest

end Lexeme

/-- How many characters of blanks and comments come first.  A comment runs from two slashes to the
end of its line. -/
def triviaLength (inComment : Bool) : List Char → Nat
  | [] => 0
  | c :: rest =>
    if inComment then 1 + triviaLength (c != '\n') rest
    else if isBlank c then 1 + triviaLength false rest
    else if c == '/' && rest.head? == some '/' then 1 + triviaLength true rest
    else 0

/-! ## Scanners -/

/-- A place in a source: the characters still to be read, the bytes before them and the position
of the first. -/
structure Scanner where
  rest : List Char
  offset : Nat
  position : Position
  deriving DecidableEq, Repr

namespace Scanner

/-- The start of a source. -/
def ofSource (source : List Char) : Scanner := ⟨source, 0, .first⟩

/-- Past one character. -/
def bump (s : Scanner) : Scanner :=
  match s.rest with
  | [] => s
  | c :: rest => ⟨rest, s.offset + c.utf8Size, s.position.after c⟩

/-- Past a number of characters. -/
def past : Nat → Scanner → Scanner
  | 0, s => s
  | n + 1, s => past n s.bump

/-- Past blanks and comments. -/
def pastTrivia (s : Scanner) : Scanner := past (triviaLength false s.rest) s

theorem length_rest_bump (s : Scanner) : s.bump.rest.length = s.rest.length - 1 := by
  rw [bump]
  split <;> simp_all

theorem length_rest_past (n : Nat) (s : Scanner) :
    (past n s).rest.length = s.rest.length - n := by
  induction n generalizing s with
  | zero => simp [past]
  | succ n ih =>
    rw [past, ih, length_rest_bump]
    omega

theorem length_rest_pastTrivia (s : Scanner) : s.pastTrivia.rest.length ≤ s.rest.length := by
  rw [pastTrivia, length_rest_past]
  omega

/-- The next token or error and the place after it, unless only blanks and comments are left. -/
def next? (s : Scanner) : Option (Except LexError Token × Scanner) :=
  let start := s.pastTrivia
  match start.rest with
  | [] => none
  | c :: rest =>
    let lexeme := Lexeme.ofChars c rest
    let stop := past lexeme.more start.bump
    let span := Span.ofRange start.offset stop.offset
    let item :=
      match lexeme.outcome with
      | .ok (kind, chars) => .ok ⟨kind, String.ofList chars, span, start.position⟩
      | .error cause => .error ⟨cause, start.position, span⟩
    some (item, stop)

theorem length_rest_next? {s after : Scanner} {item : Except LexError Token}
    (h : s.next? = some (item, after)) : after.rest.length < s.rest.length := by
  simp only [next?] at h
  split at h
  · cases h
  next c rest starts =>
    have later := length_rest_pastTrivia s
    simp only [Option.some.injEq, Prod.mk.injEq] at h
    rw [← h.2, length_rest_past, length_rest_bump]
    rw [starts] at later ⊢
    simp only [List.length_cons] at later ⊢
    omega

end Scanner

/-! ## Streams -/

/-- The end of a source: the place after the last blanks and comments. -/
structure EndMark where
  offset : Nat
  position : Position
  deriving DecidableEq, Repr

/-- The token that stands for the end of a source. -/
def EndMark.token (mark : EndMark) : Token :=
  ⟨.endOfInput, "", Span.ofRange mark.offset mark.offset, mark.position⟩

/-- The tokens and errors of a source in order, and its end, whose token follows them and repeats
for ever. -/
structure TokenStream where
  items : List (Except LexError Token)
  final : EndMark

namespace TokenStream

/-- The stream from a place on. -/
def ofScanner (s : Scanner) : TokenStream :=
  match _next : s.next? with
  | none => ⟨[], ⟨s.pastTrivia.offset, s.pastTrivia.position⟩⟩
  | some (item, after) =>
    let stream := ofScanner after
    ⟨item :: stream.items, stream.final⟩
termination_by s.rest.length
decreasing_by exact Scanner.length_rest_next? _next

/-- A stream has no items where only blanks and comments are left. -/
theorem ofScanner_end {s : Scanner} (ended : s.next? = none) :
    ofScanner s = ⟨[], ⟨s.pastTrivia.offset, s.pastTrivia.position⟩⟩ := by
  rw [ofScanner]
  split
  next => rfl
  next read => cases ended.symm.trans read

/-- A stream starts with the item that comes next. -/
theorem ofScanner_next {s after : Scanner} {item : Except LexError Token}
    (read : s.next? = some (item, after)) :
    ofScanner s = ⟨item :: (ofScanner after).items, (ofScanner after).final⟩ := by
  rw [ofScanner]
  split
  next ended => cases ended.symm.trans read
  next read' =>
    obtain ⟨rfl, rfl⟩ := Prod.mk.inj (Option.some.inj (read'.symm.trans read))
    rfl

/-- The stream of a source. -/
def ofSource (source : List Char) : TokenStream := ofScanner (.ofSource source)

/-- The tokens up to the end, which is the last, or the first error. -/
def tokens (stream : TokenStream) : Except LexError (List Token) := do
  let tokens ← stream.items.mapM id
  return tokens ++ [stream.final.token]

end TokenStream

/-- The tokens of a source, the last one its end, or the first error. -/
def tokenize (source : String) : Except LexError (List Token) :=
  (TokenStream.ofSource source.toList).tokens

namespace LexError

/-- The message of an error, with its position. -/
def message (e : LexError) : String :=
  match e.cause with
  | .invalidCharacter c => "invalid character " ++ Text.quotedChar c ++ " at " ++ e.position.text
  | .unterminatedText => "unterminated string literal starting at " ++ e.position.text

end LexError

end HostScript
