import HostScript.Proofs.Library.Conversions
import HostScript.Proofs.Syntax.Conditionals
import HostScript.Proofs.Syntax.Layout
import HostScript.Proofs.Syntax.Relexing

/-!
# Proofs/Syntax/Numbers — number tokens say which number they are

The lexer and the parser take a number apart for themselves.  A form, `Numeral.Form`, has the parts of a
number with what has to hold of them: the lexer makes only numbers of some form
(`Lexeme.exists_form_of_number`), and reading the characters of a form finds its parts again
(`Numeral.Form.fraction?_bare`).  All that can go wrong is an integer that does not fit and an exponent
without digits (`numbers_told`).
-/

namespace HostScript

open Text (isDigit)

namespace Numeral

/-! ## Forms of numbers -/

/-- **An exponent as it is written**: a marker, perhaps a sign, and digits, of which there may be none. -/
structure Exponent where
  marker : Char
  sign : List Char
  digits : List Char
  marks : marker = 'e' ∨ marker = 'E'
  signs : sign = ['+'] ∨ sign = ['-'] ∨ sign = []
  all : ∀ c ∈ digits, isDigit c = true

namespace Exponent

def chars (e : Exponent) : List Char := e.marker :: (e.sign ++ e.digits)

/-- The power of ten. -/
def power (e : Exponent) : ℤ := if e.sign = ['-'] then -placeValue e.digits else placeValue e.digits

end Exponent

/-- **A number as it is written**: digits, perhaps a point and digits, perhaps an exponent, and perhaps a
letter that closes it. -/
structure Form where
  whole : List Char
  /-- The digits after the point; without any, there is no point. -/
  places : List Char
  exponent? : Option Exponent
  closing : List Char
  filled : AreDigits whole
  all : ∀ c ∈ places, isDigit c = true
  closes : closing = [] ∨ closing = ['f'] ∨ closing = ['F']

namespace Form

/-- The point with the digits after it. -/
def point (f : Form) : List Char := if f.places = [] then [] else '.' :: f.places

/-- The exponent. -/
def marked (f : Form) : List Char := (f.exponent?.map Exponent.chars).getD []

/-- The number without the letter that closes it. -/
def bare (f : Form) : List Char := f.whole ++ (f.point ++ f.marked)

def chars (f : Form) : List Char := f.bare ++ f.closing

/-- A number of digits only is whole. -/
def kind (f : Form) : Kind := if (f.point ++ f.marked ++ f.closing).isEmpty then .integer else .fraction

/-- The float nearest to the digits, as an integer, times a power of ten. -/
def float (f : Form) : Float :=
  ofDecimal (placeValue (f.whole ++ f.places)) ((f.exponent?.map Exponent.power).getD 0 - f.places.length)

/-- A number with an exponent marker and no digits after it. -/
def LacksPower (f : Form) : Prop := ∃ e ∈ f.exponent?, e.digits = []

end Form

/-- **A text with an exponent marker and no digit after it.** -/
def HasBareMarker (cs : List Char) : Prop :=
  ∃ front marker rest, cs = front ++ marker :: rest ∧ (marker = 'e' ∨ marker = 'E') ∧
    ∀ c ∈ rest, isDigit c = false

end Numeral

/-! ## The lexer -/

namespace Lexeme

open Numeral

variable {c : Char} {rest chars : List Char} {kind : Kind} {more : Nat}

theorem exists_exponent (cs : List Char) :
    ∃ exponent? : Option Exponent, exponentPart cs = (exponent?.map Exponent.chars).getD [] := by
  obtain none | ⟨marker, after, some, marks⟩ := exponentPart_eq cs
  · exact ⟨Option.none, none⟩
  · obtain ⟨sign, digits, tail, signs, all⟩ := exponentTail_eq after
    refine ⟨Option.some ⟨marker, sign, digits, marks, signs, all⟩, ?_⟩
    rw [some, tail]
    rfl

theorem exists_places (cs : List Char) : ∃ places : List Char, (∀ c ∈ places, isDigit c = true) ∧
    fractionPart cs = if places = [] then [] else '.' :: places := by
  obtain none | ⟨d, digits, some, digit, all⟩ := fractionPart_eq cs
  · exact ⟨[], nofun, none⟩
  · exact ⟨d :: digits, List.forall_mem_cons.2 ⟨digit, all⟩, some⟩

/-- **What the lexer takes for a number has a form.** -/
theorem exists_form_of_number (digit : isDigit c = true) (h : number c rest = ⟨.ok (kind, chars), more⟩) :
    ∃ f : Form, f.kind = kind ∧ f.chars = chars := by
  unfold number at h
  dsimp only at h
  generalize taken : rest.takeWhile isDigit = whole at h
  obtain ⟨places, all, point⟩ := exists_places (rest.drop whole.length)
  rw [point] at h
  generalize (rest.drop whole.length).drop _ = after at h
  obtain ⟨exponent?, marked⟩ := exists_exponent after
  rw [marked] at h
  generalize closed : suffixPart _ = closing at h
  have closes := closed ▸ suffixPart_eq _
  have filled : AreDigits (c :: whole) :=
    ⟨List.cons_ne_nil _ _, List.forall_mem_cons.2 ⟨digit, taken ▸ fun d => isDigit_of_mem_takeWhile⟩⟩
  refine ⟨⟨c :: whole, places, exponent?, closing, filled, all, closes⟩, ?_⟩
  obtain ⟨same, rfl⟩ := Prod.mk.inj (Except.ok.inj (congrArg Lexeme.outcome h))
  refine ⟨same, ?_⟩
  simp only [Form.chars, Form.bare, Form.point, Form.marked, List.append_assoc]

end Lexeme

/-! ## Reading a form -/

/-- What is left where a test no longer holds. -/
theorem dropWhile_startsIn {p : Char → Bool} {allowed front rest : List Char}
    (stops : allowed.any p = false) (all : ∀ c ∈ front, p c = true) (starts : StartsIn allowed rest) :
    (front ++ rest).dropWhile p = rest := by
  have whole := List.takeWhile_append_dropWhile (p := p) (l := front ++ rest)
  rw [takeWhile_startsIn stops all starts] at whole
  exact List.append_cancel_left whole

namespace Numeral

variable {whole places tail : List Char}

theorem unsignedFraction?_plain (filled : AreDigits whole) (starts : StartsIn ['e', 'E'] tail) :
    unsignedFraction? (whole ++ tail) =
      (exponentPart? tail).map fun e => ofDecimal (placeValue whole) (e - (0 : ℕ)) := by
  have front := takeWhile_startsIn (by decide) filled.2 starts
  have back := dropWhile_startsIn (by decide) filled.2 starts
  have some : whole.isEmpty = false := List.isEmpty_eq_false_iff.2 filled.1
  unfold unsignedFraction?
  dsimp only
  rw [front, back]
  split
  next => exact absurd (starts '.' rfl) (by decide)
  next =>
    rw [some, ofDigitChars_eq_placeValue, List.append_nil]
    rfl

theorem unsignedFraction?_pointed (filled : AreDigits whole) (all : ∀ c ∈ places, isDigit c = true)
    (starts : StartsIn ['e', 'E'] tail) :
    unsignedFraction? (whole ++ '.' :: (places ++ tail)) =
      (exponentPart? tail).map fun e => ofDecimal (placeValue (whole ++ places)) (e - places.length) := by
  have pointed : StartsIn ['.'] ('.' :: (places ++ tail)) := fun c here => by
    obtain rfl := Option.some.inj here
    exact List.mem_singleton_self _
  have front := takeWhile_startsIn (by decide) filled.2 pointed
  have back := dropWhile_startsIn (by decide) filled.2 pointed
  have first := takeWhile_startsIn (by decide) all starts
  have second := dropWhile_startsIn (by decide) all starts
  have some : whole.isEmpty = false := List.isEmpty_eq_false_iff.2 filled.1
  unfold unsignedFraction?
  dsimp only
  rw [front, back]
  split
  next same =>
    obtain rfl := (List.cons.inj same).2
    rw [first, second, some, ofDigitChars_eq_placeValue]
    rfl
  next other => exact absurd rfl (other _)

namespace Exponent

theorem startsIn_chars (e : Exponent) : StartsIn ['e', 'E'] e.chars := by
  rintro c ⟨⟩
  obtain mark | mark := e.marks <;> rw [mark] <;> decide

theorem exponentPart?_chars (e : Exponent) :
    exponentPart? e.chars = if e.digits = [] then none else some e.power := by
  have marks : (decide (e.marker = 'e') || decide (e.marker = 'E')) = true := by
    simpa only [Bool.or_eq_true, decide_eq_true_eq] using e.marks
  rw [chars, exponentPart?, if_pos marks]
  split
  next empty =>
    rw [empty]
    obtain sign | sign | sign := e.signs <;> rw [sign] <;> rfl
  next some =>
    have digits : AreDigits e.digits := ⟨some, e.all⟩
    rw [integer?_eq_some_iff, power]
    obtain sign | sign | sign := e.signs <;> rw [sign]
    · exact .plus digits
    · exact .minus digits
    · exact .bare digits

end Exponent

namespace Form

theorem startsIn_marked (f : Form) : StartsIn ['e', 'E'] f.marked := by
  unfold marked
  cases f.exponent? with
  | none => exact nofun
  | some e => exact e.startsIn_chars

theorem unsignedFraction?_bare (f : Form) : unsignedFraction? f.bare =
    (exponentPart? f.marked).map fun e =>
      ofDecimal (placeValue (f.whole ++ f.places)) (e - f.places.length) := by
  unfold bare point
  split
  next none =>
    rw [none, List.append_nil]
    exact unsignedFraction?_plain f.filled f.startsIn_marked
  next => exact unsignedFraction?_pointed f.filled f.all f.startsIn_marked

/-- Digits are no word for a float. -/
theorem namedFraction?_digit {d : Char} {rest : List Char} (digit : isDigit d = true) :
    namedFraction? (d :: rest) = none := by
  have lower : d.toLower = d := by
    unfold isDigit at digit
    rw [Bool.and_eq_true, decide_eq_true_eq, decide_eq_true_eq, Char.le_def, Char.le_def] at digit
    unfold Char.toLower
    refine dif_neg fun capital => ?_
    exact absurd (UInt32.le_trans capital.1 digit.2) (by decide)
  have other {c : Char} {cs : List Char} (letter : isDigit c = false) :
      (d :: rest).map Char.toLower ≠ c :: cs := by
    intro same
    obtain rfl : d = c := lower.symm.trans (List.cons.inj same).1
    exact absurd digit (Bool.eq_false_iff.1 letter)
  unfold namedFraction?
  dsimp only
  rw [if_neg (other rfl), if_neg]
  rw [Bool.or_eq_true, decide_eq_true_eq, decide_eq_true_eq]
  exact not_or.2 ⟨other rfl, other rfl⟩

/-- What begins with a digit has no sign. -/
theorem fraction?_digit {d : Char} {rest : List Char} (digit : isDigit d = true) :
    fraction? (d :: rest) = unsignedFraction? (d :: rest) := by
  unfold fraction?
  split
  next same =>
    cases same
    exact absurd digit (by decide)
  next same =>
    cases same
    exact absurd digit (by decide)
  next =>
    dsimp only
    rw [namedFraction?_digit digit, Option.none_or]

theorem unsigned_bare (f : Form) : fraction? f.bare = unsignedFraction? f.bare := by
  obtain ⟨filled, digits⟩ := f.filled
  unfold bare
  generalize f.point ++ f.marked = rest
  cases whole : f.whole with
  | nil => exact absurd whole filled
  | cons d more => exact fraction?_digit (digits d (whole ▸ List.mem_cons_self))

theorem exponentPart?_marked (f : Form) : (f.LacksPower → exponentPart? f.marked = none) ∧
    (¬f.LacksPower → exponentPart? f.marked = some ((f.exponent?.map Exponent.power).getD 0)) := by
  unfold LacksPower marked
  cases f.exponent? with
  | none => exact ⟨nofun, fun _ => rfl⟩
  | some e =>
    show (_ → exponentPart? e.chars = none) ∧ (_ → exponentPart? e.chars = some e.power)
    rw [e.exponentPart?_chars]
    refine ⟨?_, fun powered => if_neg fun empty => powered ⟨e, rfl, empty⟩⟩
    rintro ⟨e, ⟨⟩, empty⟩
    exact if_pos empty

/-- **Reading the bare characters of a form finds its parts**, unless its exponent has no digits. -/
theorem fraction?_bare (f : Form) : (f.LacksPower → fraction? f.bare = none) ∧
    (¬f.LacksPower → fraction? f.bare = some f.float) := by
  obtain ⟨lacks, powered⟩ := f.exponentPart?_marked
  rw [unsigned_bare, unsignedFraction?_bare]
  exact ⟨fun h => by rw [lacks h, Option.map_none], fun h => by rw [powered h, Option.map_some]; rfl⟩

/-! ### Characters of a form -/

theorem mem_front (f : Form) {c : Char} (h : c ∈ f.whole ++ f.point) : isDigit c = true ∨ c = '.' := by
  obtain inside | inside := List.mem_append.1 h
  · exact .inl (f.filled.2 c inside)
  · unfold point at inside
    split at inside
    · exact absurd inside List.not_mem_nil
    · obtain rfl | digit := List.mem_cons.1 inside
      · exact .inr rfl
      · exact .inl (f.all c digit)

theorem mem_tail (e : Exponent) {c : Char} (h : c ∈ e.sign ++ e.digits) :
    isDigit c = true ∨ c = '+' ∨ c = '-' := by
  obtain inside | inside := List.mem_append.1 h
  · obtain sign | sign | sign := e.signs <;> rw [sign] at inside
    · exact .inr (.inl (List.mem_singleton.1 inside))
    · exact .inr (.inr (List.mem_singleton.1 inside))
    · exact absurd inside List.not_mem_nil
  · exact .inl (e.all c inside)

theorem mem_closing (f : Form) {c : Char} (h : c ∈ f.closing) : c = 'f' ∨ c = 'F' := by
  obtain none | small | capital := f.closes
  · exact absurd (none ▸ h) List.not_mem_nil
  · exact .inl (List.mem_singleton.1 (small ▸ h))
  · exact .inr (List.mem_singleton.1 (capital ▸ h))

/-- The letter that closes a number is none of its bare characters. -/
theorem ne_closing_of_mem_bare (f : Form) {c : Char} (h : c ∈ f.bare) : c ≠ 'f' ∧ c ≠ 'F' := by
  have digit (d : isDigit c = true) : c ≠ 'f' ∧ c ≠ 'F' := by
    constructor <;> rintro rfl <;> exact absurd d (by decide)
  rw [bare, ← List.append_assoc] at h
  obtain front | rest := List.mem_append.1 h
  · obtain d | rfl := f.mem_front front
    · exact digit d
    · decide
  · unfold marked at rest
    cases exponent : f.exponent? with
    | none =>
      rw [exponent] at rest
      exact absurd rest List.not_mem_nil
    | some e =>
      rw [exponent] at rest
      obtain rfl | inside := List.mem_cons.1 rest
      · obtain mark | mark := e.marks <;> rw [mark] <;> decide
      · obtain d | rfl | rfl := mem_tail e inside
        · exact digit d
        · decide
        · decide

/-- **Without its closing letters a number is bare.** -/
theorem trimmed_chars (f : Form) :
    (f.chars.reverse.dropWhile fun c => c == 'f' || c == 'F').reverse = f.bare := by
  have closing : ∀ c ∈ f.closing.reverse, (c == 'f' || c == 'F') = true := by
    intro c mem
    obtain rfl | rfl := f.mem_closing (List.mem_reverse.1 mem) <;> rfl
  rw [chars, List.reverse_append, List.dropWhile_append_of_pos closing]
  have solid : f.bare.reverse.dropWhile (fun c => c == 'f' || c == 'F') = f.bare.reverse := by
    refine List.dropWhile_eq_self_iff.2 fun some => ?_
    rw [Bool.or_eq_true, beq_iff_eq, beq_iff_eq]
    exact not_or.2 (f.ne_closing_of_mem_bare (List.mem_reverse.1 (List.get_mem _ _)))
  rw [solid, List.reverse_reverse]

theorem chars_eq (f : Form) : f.chars = (f.whole ++ f.point) ++ (f.marked ++ f.closing) := by
  simp only [chars, bare, List.append_assoc]

/-- **An exponent marker in the text is the one of the exponent**, which the rest of the number follows. -/
theorem eq_of_marker (f : Form) {before rest : List Char} {marker : Char}
    (split : f.chars = before ++ marker :: rest) (marks : marker = 'e' ∨ marker = 'E') :
    ∃ e ∈ f.exponent?, e.sign ++ e.digits ++ f.closing = rest := by
  have front : marker ∉ f.whole ++ f.point := fun mem => by
    obtain rfl | rfl := marks <;> exact absurd (f.mem_front mem) (by decide)
  have closing : marker ∉ f.closing := fun mem => by
    obtain rfl | rfl := marks <;> exact absurd (f.mem_closing mem) (by decide)
  rw [chars_eq, marked] at split
  cases written : f.exponent? with
  | none =>
    rw [written] at split
    replace split : f.whole ++ f.point ++ f.closing = before ++ marker :: rest := split
    have mem : marker ∈ f.whole ++ f.point ++ f.closing :=
      split ▸ List.mem_append_right before List.mem_cons_self
    exact absurd (List.mem_append.1 mem) (not_or.2 ⟨front, closing⟩)
  | some e =>
    have tail : marker ∉ e.sign ++ e.digits := fun mem => by
      obtain rfl | rfl := marks <;> exact absurd (mem_tail e mem) (by decide)
    have back : marker ∉ e.sign ++ e.digits ++ f.closing := fun mem =>
      absurd (List.mem_append.1 mem) (not_or.2 ⟨tail, closing⟩)
    rw [written] at split
    obtain ⟨-, -, same⟩ := (List.append_cons_inj_of_notMem front back).1 split
    exact ⟨e, rfl, same⟩

/-- **A form lacks the digits of its exponent just where its text has a bare marker.** -/
theorem lacksPower_iff (f : Form) : f.LacksPower ↔ HasBareMarker f.chars := by
  constructor
  · rintro ⟨e, written, empty⟩
    refine ⟨f.whole ++ f.point, e.marker, e.sign ++ f.closing, ?_, e.marks, fun c mem => ?_⟩
    · rw [chars_eq, marked, written, Option.map_some, Option.getD_some, Exponent.chars, empty,
        List.append_nil]
      rfl
    · obtain signed | closed := List.mem_append.1 mem
      · obtain sign | sign | sign := e.signs <;> rw [sign] at signed
        · exact List.mem_singleton.1 signed ▸ by decide
        · exact List.mem_singleton.1 signed ▸ by decide
        · exact absurd signed List.not_mem_nil
      · obtain rfl | rfl := f.mem_closing closed <;> decide
  · rintro ⟨before, marker, rest, split, marks, bare⟩
    obtain ⟨e, written, rfl⟩ := f.eq_of_marker split marks
    refine ⟨e, written, List.eq_nil_iff_forall_not_mem.2 fun c digit => ?_⟩
    have inside := List.mem_append_left f.closing (List.mem_append_right e.sign digit)
    exact absurd ((e.all c digit).symm.trans (bare c inside)) (by decide)

end Form

end Numeral

/-! ## Tokens -/

/-- A kind that numbers have. -/
def Kind.IsNumber (kind : Kind) : Prop := kind = .integer ∨ kind = .fraction

namespace Kind

instance (kind : Kind) : Decidable kind.IsNumber := inferInstanceAs (Decidable (_ ∨ _))

theorem not_isNumber_of_ofKeyword? {text : String} {kind : Kind} (h : ofKeyword? text = some kind) :
    ¬kind.IsNumber := by
  unfold ofKeyword? at h
  split at h <;> cases h <;> decide

theorem not_isNumber_of_ofChar? {c : Char} {kind : Kind} (h : ofChar? c = some kind) : ¬kind.IsNumber := by
  unfold ofChar? at h
  split at h <;> cases h <;> decide

theorem not_isNumber_of_ofPair? {c d : Char} {kind : Kind} (h : ofPair? c d = some kind) :
    ¬kind.IsNumber := by
  unfold ofPair? at h
  split at h <;> cases h <;> decide

end Kind

/-- A lexeme of a number has a form. -/
theorem Lexeme.exists_form {c : Char} {rest chars : List Char} {kind : Kind} {more : Nat}
    (h : ofChars c rest = ⟨.ok (kind, chars), more⟩) (number : kind.IsNumber) :
    ∃ f : Numeral.Form, f.kind = kind ∧ f.chars = chars := by
  unfold ofChars at h
  split at h
  next =>
    cases h
    refine absurd number ?_
    cases found : Kind.ofKeyword? (String.ofList (c :: rest.takeWhile continuesWord)) with
    | none => decide
    | some kind => exact Kind.not_isNumber_of_ofKeyword? found
  split at h
  next digit => exact exists_form_of_number digit h
  split at h
  next =>
    unfold quotedText at h
    dsimp only at h
    split at h
    · cases h
      exact absurd number (by decide)
    · cases h
  next =>
    unfold operator at h
    split at h
    next found =>
      cases h
      obtain ⟨d, -, second⟩ := Option.bind_eq_some_iff.1 found
      obtain ⟨pair, known, same⟩ := Option.map_eq_some_iff.1 second
      cases same
      exact absurd number (Kind.not_isNumber_of_ofPair? known)
    next =>
      split at h
      next known =>
        cases h
        exact absurd number (Kind.not_isNumber_of_ofChar? known)
      next => cases h

/-- **Every number of a stream has a form.** -/
theorem TokenStream.exists_form_of_mem {s : Scanner} {token : Token} (h : .ok token ∈ (ofScanner s).items)
    (number : token.kind.IsNumber) :
    ∃ f : Numeral.Form, f.kind = token.kind ∧ f.chars = token.text.toList := by
  obtain ⟨c, rest, chars, more, lexed, text⟩ := exists_lexeme_of_mem h
  obtain ⟨f, kind, same⟩ := Lexeme.exists_form lexed number
  exact ⟨f, kind, by rw [text, String.toList_ofList, same]⟩

open HostScript.Parser (Yields primary literal startsLiteral)

namespace Token

variable {t : Token} {value : Literal} {f : Numeral.Form}

/-- **A token that is read as a constant**: where it is held and can be taken, it is a primary expression. -/
def GivesConstant (t : Token) (value : Literal) : Prop :=
  ∀ c after, c.current = t → c.Moves after → Yields (primary c) (.literal t.span value) after

/-- **A token that is refused as a number**: where it is held and can be taken, reading fails and names it. -/
def IsRefused (t : Token) : Prop :=
  ∀ c after, c.current = t → c.Moves after →
    primary c = .error (.parse ⟨.invalidNumber t.text, t.position, t.span⟩)

theorem exists_moves (held : t.kind ≠ .endOfInput) : ∃ c after : Cursor, c.current = t ∧ c.Moves after :=
  ⟨⟨t, [], ⟨0, .first⟩, .none⟩, _, rfl, held, rfl⟩

theorem startsLiteral_of_isNumber {kind : Kind} (number : kind.IsNumber) :
    startsLiteral kind = true ∧ kind ≠ .endOfInput := by
  obtain rfl | rfl := number <;> decide

/-- The primary expression at a number is what is made of its token. -/
theorem primary_of_isNumber {c : Cursor} (number : c.kind.IsNumber) : ∃ held, primary c =
    Parser.shift c held >>= fun token =>
      (literal token.value).mapError .parse >>= fun value =>
        .ok ⟨.literal token.value.span value, token.next, token.fewer⟩ := by
  obtain ⟨starts, held⟩ := startsLiteral_of_isNumber number
  have other : c.kind ≠ .leftParen := by
    obtain same | same := number <;> rw [same] <;> decide
  refine ⟨held, ?_⟩
  rw [primary, dif_neg other, dif_pos starts]
  rfl

theorem primary_of_moves {c after : Cursor} (number : c.kind.IsNumber) (moves : c.Moves after) :
    ∃ fewer, primary c = (literal c.current).mapError .parse >>= fun value =>
      .ok ⟨.literal c.current.span value, after, fewer⟩ := by
  obtain ⟨held, made⟩ := primary_of_isNumber number
  obtain ⟨fewer, taken⟩ := Parser.shift_of_ok moves.advance held
  refine ⟨fewer, ?_⟩
  rw [made, taken]
  rfl

/-- An error right after a number is met first. -/
theorem primary_of_error {c after : Cursor} {e : LexError} (number : c.kind.IsNumber)
    (step : c.advance = (.error e, after)) : primary c = .error (.lex e) := by
  obtain ⟨held, made⟩ := primary_of_isNumber number
  rw [made, Parser.shift_of_error step held]
  rfl

theorem givesConstant_iff (number : t.kind.IsNumber) :
    t.GivesConstant value ↔ literal t = .ok value := by
  constructor
  · intro gives
    obtain ⟨c, after, rfl, moves⟩ := exists_moves (startsLiteral_of_isNumber number).2
    obtain ⟨fewer, made⟩ := primary_of_moves number moves
    obtain ⟨_, yields⟩ := gives c after rfl moves
    rw [made] at yields
    cases read : literal c.current with
    | ok other =>
      rw [read] at yields
      cases yields
      rfl
    | error e =>
      rw [read] at yields
      cases yields
  · rintro read c after rfl moves
    obtain ⟨fewer, made⟩ := primary_of_moves number moves
    rw [made, read]
    exact .pure fewer

theorem isRefused_iff (number : t.kind.IsNumber) :
    t.IsRefused ↔ literal t = .error ⟨.invalidNumber t.text, t.position, t.span⟩ := by
  constructor
  · intro refused
    obtain ⟨c, after, rfl, moves⟩ := exists_moves (startsLiteral_of_isNumber number).2
    obtain ⟨fewer, made⟩ := primary_of_moves number moves
    have fails := refused c after rfl moves
    rw [made] at fails
    cases read : literal c.current with
    | ok other =>
      rw [read] at fails
      cases fails
    | error e =>
      rw [read] at fails
      cases fails
      rfl
  · rintro read c after rfl moves
    obtain ⟨fewer, made⟩ := primary_of_moves number moves
    rw [made, read]
    rfl

/-! ### Constants -/

open Numeral

/-- Digits are refused just where no integer of sixty-four bits has their value. -/
theorem literal_integer (kind : t.kind = .integer) (digits : AreDigits t.text.toList) :
    (∃ n : Int64, n.toInt = placeValue t.text.toList ∧ literal t = .ok (.int n)) ∨
      2 ^ 63 - 1 < placeValue t.text.toList ∧
        literal t = .error ⟨.invalidNumber t.text, t.position, t.span⟩ := by
  unfold literal
  rw [kind]
  dsimp only
  cases read : readWord? t.text.toList with
  | some n =>
    refine .inl ⟨n, ?_, rfl⟩
    have spelled := integer?_eq_some_iff.2 (readWord?_eq_some_iff.1 read)
    rw [integer?_eq_some_iff.2 (.bare digits)] at spelled
    exact (Option.some.inj spelled).symm
  | none =>
    refine .inr ⟨Nat.lt_of_not_le fun fits => ?_, rfl⟩
    have small : (Int64.ofNat (placeValue t.text.toList)).toInt = placeValue t.text.toList :=
      Int64.toInt_ofNat_of_lt (by omega)
    have spelled : Numeral.Spells t.text.toList (Int64.ofNat (placeValue t.text.toList)).toInt :=
      small ▸ .bare digits
    cases read.symm.trans (readWord?_eq_some_iff.2 spelled)

/-- A number with a form that is no integer is refused just where its text has a bare marker. -/
theorem literal_fraction (kind : t.kind = .fraction) (same : f.chars = t.text.toList) :
    (¬HasBareMarker t.text.toList ∧ literal t = .ok (.float f.float)) ∨
      HasBareMarker t.text.toList ∧ literal t = .error ⟨.invalidNumber t.text, t.position, t.span⟩ := by
  obtain ⟨lacks, powered⟩ := f.fraction?_bare
  unfold literal
  rw [kind, ← same]
  dsimp only
  rw [f.trimmed_chars, ← f.lacksPower_iff]
  by_cases h : f.LacksPower
  · rw [lacks h]
    exact .inr ⟨h, rfl⟩
  · rw [powered h]
    exact .inl ⟨h, rfl⟩

/-- **A token that says which number it is**, or is refused. -/
structure TellsNumber (t : Token) : Prop where
  /-- Digits are a constant just if sixty-four bits hold their value, and then this is its value. -/
  integer : t.kind = .integer → AreDigits t.text.toList ∧
    ((∃ value, t.GivesConstant value) ↔ placeValue t.text.toList ≤ 2 ^ 63 - 1) ∧
    (t.IsRefused ↔ 2 ^ 63 - 1 < placeValue t.text.toList) ∧
    ∀ value, t.GivesConstant value → ∃ n : Int64, value = .int n ∧ n.toInt = placeValue t.text.toList
  /-- Any other number has a form.  It is a constant just if no marker is bare, and then the float of it. -/
  fraction : t.kind = .fraction → (∃ f : Form, f.chars = t.text.toList) ∧
    ((∃ value, t.GivesConstant value) ↔ ¬HasBareMarker t.text.toList) ∧
    (t.IsRefused ↔ HasBareMarker t.text.toList) ∧
    ∀ f : Form, f.chars = t.text.toList → ∀ value, t.GivesConstant value → value = .float f.float
  /-- Only an error right after the token comes before all that. -/
  interrupted : t.kind.IsNumber → ∀ c e after, c.current = t → c.advance = (.error e, after) →
    primary c = .error (.lex e)

theorem tellsNumber_integer (kind : t.kind = .integer) (digits : AreDigits t.text.toList) :
    ((∃ value, t.GivesConstant value) ↔ placeValue t.text.toList ≤ 2 ^ 63 - 1) ∧
    (t.IsRefused ↔ 2 ^ 63 - 1 < placeValue t.text.toList) ∧
    ∀ value, t.GivesConstant value → ∃ n : Int64, value = .int n ∧ n.toInt = placeValue t.text.toList := by
  simp only [givesConstant_iff (.inl kind), isRefused_iff (.inl kind)]
  obtain ⟨n, fits, read⟩ | ⟨large, refused⟩ := literal_integer kind digits
  · have bound := n.toInt_lt
    rw [read]
    refine ⟨⟨fun _ => by omega, fun _ => ⟨_, rfl⟩⟩, ⟨nofun, fun large => by omega⟩, ?_⟩
    rintro value ⟨⟩
    exact ⟨n, rfl, fits⟩
  · rw [refused]
    exact ⟨⟨nofun, fun fits => by omega⟩, ⟨fun _ => large, fun _ => rfl⟩, nofun⟩

theorem tellsNumber_fraction (kind : t.kind = .fraction) (same : f.chars = t.text.toList) :
    ((∃ value, t.GivesConstant value) ↔ ¬HasBareMarker t.text.toList) ∧
    (t.IsRefused ↔ HasBareMarker t.text.toList) ∧
    ∀ f : Form, f.chars = t.text.toList → ∀ value, t.GivesConstant value → value = .float f.float := by
  simp only [givesConstant_iff (.inr kind), isRefused_iff (.inr kind)]
  refine ⟨?_, ?_, fun f same value read => ?_⟩
  · obtain ⟨powered, read⟩ | ⟨bare, refused⟩ := literal_fraction kind same
    · exact ⟨fun _ => powered, fun _ => ⟨_, read⟩⟩
    · rw [refused]
      exact ⟨nofun, fun powered => absurd bare powered⟩
  · obtain ⟨powered, read⟩ | ⟨bare, refused⟩ := literal_fraction kind same
    · rw [read]
      exact ⟨nofun, fun bare => absurd bare powered⟩
    · exact ⟨fun _ => bare, fun _ => refused⟩
  · obtain ⟨-, found⟩ | ⟨-, refused⟩ := literal_fraction kind same
    · exact Except.ok.inj (read.symm.trans found)
    · cases read.symm.trans refused

end Token

/-- A whole number is digits only. -/
theorem Numeral.Form.chars_of_integer {f : Numeral.Form} (whole : f.kind = .integer) :
    f.chars = f.whole := by
  unfold kind at whole
  split at whole
  next empty =>
    rw [List.isEmpty_iff, List.append_assoc] at empty
    rw [chars, bare, List.append_assoc, List.append_assoc, empty, List.append_nil]
  next => cases whole

/-- **Every number token of a source says which number it is**: of digits, just if it fits into sixty-four
bits; of any other form, just if its exponent has digits; and nothing else is refused. -/
theorem numbers_told (source : String) :
    ∀ token, .ok token ∈ (TokenStream.ofSource source.toList).items → token.TellsNumber := by
  intro token mem
  constructor
  · intro kind
    obtain ⟨f, same, text⟩ := TokenStream.exists_form_of_mem mem (.inl kind)
    rw [f.chars_of_integer (same.trans kind)] at text
    have digits : Numeral.AreDigits token.text.toList := text ▸ f.filled
    exact ⟨digits, Token.tellsNumber_integer kind digits⟩
  · intro kind
    obtain ⟨f, same, text⟩ := TokenStream.exists_form_of_mem mem (.inr kind)
    exact ⟨⟨f, text⟩, Token.tellsNumber_fraction kind text⟩
  · rintro number c e after rfl step
    exact Token.primary_of_error number step

/-- An integer that is too large by one, and an exponent with and without digits. -/
theorem numbers_told_odd : let source := "9223372036854775808 2e 1e-3F"
    let large : Token := ⟨.integer, "9223372036854775808", ⟨0, 19⟩, ⟨1, 1⟩⟩
    let bare : Token := ⟨.fraction, "2e", ⟨20, 22⟩, ⟨1, 21⟩⟩
    let powered : Token := ⟨.fraction, "1e-3F", ⟨23, 28⟩, ⟨1, 24⟩⟩
    (TokenStream.ofSource source.toList).items = [.ok large, .ok bare, .ok powered] ∧
      large.IsRefused ∧ bare.IsRefused ∧ ∃ value, powered.GivesConstant value := by
  intro source large bare powered
  have items : (TokenStream.ofSource source.toList).items = [.ok large, .ok bare, .ok powered] := by
    decide +kernel
  have told := numbers_told source
  rw [items] at told
  refine ⟨items, ?_, ?_, ?_⟩
  · obtain ⟨-, -, refused, -⟩ := (told large (by simp)).integer rfl
    exact refused.2 (by decide +kernel)
  · obtain ⟨-, -, refused, -⟩ := (told bare (by simp)).fraction rfl
    exact refused.2 ⟨['2'], 'e', [], by decide, .inl rfl, nofun⟩
  · obtain ⟨-, given, -⟩ := (told powered (by simp)).fraction rfl
    let power : Numeral.Exponent :=
      ⟨'e', ['-'], ['3'], .inl rfl, .inr (.inl rfl), List.forall_mem_singleton.2 rfl⟩
    let f : Numeral.Form := ⟨['1'], [], some power, ['F'],
      ⟨List.cons_ne_nil _ _, List.forall_mem_singleton.2 rfl⟩, List.forall_mem_nil _, .inr (.inr rfl)⟩
    have text : f.chars = powered.text.toList := by decide
    refine given.2 fun marker => ?_
    obtain ⟨e, ⟨⟩, empty⟩ := f.lacksPower_iff.2 (text ▸ marker)
    cases empty

end HostScript
