import HostScript.Proofs.Source.Tiling
import HostScript.Proofs.Syntax.Printer

/-!
# Proofs/Syntax/Lexemes — spellings that are read back

`Word.ReadAs` says that the lexer reads a word off characters, where nothing or a blank follows; a word is
readable when that holds of its spelling (`Word.IsReadable`).  So it does of keywords, operators and names, of
the constants that can be written, and of numbers of every form: `number_append` says that the parts of a
number are the same when something else follows it, part by part, since no part goes on with a character that
starts a later one.
-/

namespace HostScript

open Text (isBlank isDigit isLetter)

/-! ## Characters -/

/-- Nothing, or a blank and more: what may follow a word. -/
def Parted (rest : List Char) : Prop := ∀ c ∈ rest.head?, c = ' '

theorem parted_nil : Parted [] := nofun

theorem parted_cons {rest : List Char} : Parted (' ' :: rest) := by
  rintro c ⟨⟩
  rfl

/-- Nothing, or one of a few characters and more. -/
def StartsIn (allowed rest : List Char) : Prop := ∀ c ∈ rest.head?, c ∈ allowed

theorem StartsIn.append {allowed front rest : List Char} (first : StartsIn allowed front)
    (second : StartsIn allowed rest) : StartsIn allowed (front ++ rest) := by
  cases front with
  | nil => exact second
  | cons => exact first

theorem StartsIn.mono {some allowed rest : List Char} (h : StartsIn some rest) (more : some ⊆ allowed) :
    StartsIn allowed rest := fun c here => more (h c here)

theorem Parted.startsIn {rest : List Char} (h : Parted rest) : StartsIn [' '] rest :=
  fun c here => List.mem_singleton.2 (h c here)

/-- What is read while a test holds that nothing passes of what may follow. -/
theorem takeWhile_startsIn {p : Char → Bool} {allowed front rest : List Char}
    (stops : allowed.any p = false) (all : ∀ c ∈ front, p c = true) (starts : StartsIn allowed rest) :
    (front ++ rest).takeWhile p = front := by
  rw [List.takeWhile_append_of_pos all]
  cases rest with
  | nil => simp
  | cons c rest =>
    have stop := List.any_eq_false.1 stops c (starts c rfl)
    rw [List.takeWhile_cons_of_neg stop, List.append_nil]

/-- What is read while a test holds that no blank passes. -/
theorem takeWhile_parted {p : Char → Bool} {front rest : List Char} (stops : p ' ' = false)
    (all : ∀ c ∈ front, p c = true) (parted : Parted rest) :
    (front ++ rest).takeWhile p = front :=
  takeWhile_startsIn (by rw [List.any_cons, stops]; rfl) all parted.startsIn

/-- Whether no character is in both of two tables. -/
def Text.Ranges.apart (some others : Text.Ranges) : Bool :=
  some.toList.all fun r => others.toList.all fun s => r.2.blt s.1 || s.2.blt r.1

theorem has_eq_false_of_apart {some others : Text.Ranges} (h : some.apart others = true) {c : Char}
    (other : others.has c = true) : some.has c = false := by
  rw [← Bool.not_eq_true, Text.Ranges.has_iff]
  rintro ⟨r, held, low, high⟩
  obtain ⟨s, among, above, below⟩ := Text.Ranges.has_iff.1 other
  have disjoint := List.all_eq_true.1 (List.all_eq_true.1 h r held.val) s among.val
  simp only [Bool.or_eq_true, Nat.blt_eq] at disjoint
  omega

/-- The blanks as a table. -/
def blankRanges : Text.Ranges :=
  #[(0x9, 0xD), (0x20, 0x20), (0x85, 0x85), (0xA0, 0xA0), (0x1680, 0x1680), (0x2000, 0x200A),
    (0x2028, 0x2029), (0x202F, 0x202F), (0x205F, 0x205F), (0x3000, 0x3000)]

theorem has_blankRanges {c : Char} (h : isBlank c = true) : blankRanges.has c = true := by
  simp only [isBlank, Bool.or_eq_true, Bool.and_eq_true, decide_eq_true_eq, beq_iff_eq] at h
  simp only [Text.Ranges.has, blankRanges, List.any_toArray, List.any_cons, List.any_nil,
    Bool.or_eq_true, Bool.and_eq_true, decide_eq_true_eq]
  omega

theorem isAsciiLetter_of_isBlank {c : Char} (h : isBlank c = true) :
    Text.isAsciiLetter c = false := by
  simp only [isBlank, Bool.or_eq_true, Bool.and_eq_true, decide_eq_true_eq, beq_iff_eq] at h
  rw [← Bool.not_eq_true]
  intro letter
  simp only [Text.isAsciiLetter, Bool.or_eq_true, Bool.and_eq_true, decide_eq_true_eq, Char.le_def,
    UInt32.le_iff_toNat_le, Char.reduceVal, UInt32.reduceToNat] at letter
  have code : c.toNat = c.val.toNat := rfl
  omega

theorem isLetter_of_isBlank {c : Char} (h : isBlank c = true) : isLetter c = false := by
  have apart : Text.alphabeticRanges.apart blankRanges = true := by decide +kernel
  rw [Text.isLetter]
  split
  · exact isAsciiLetter_of_isBlank h
  · exact has_eq_false_of_apart apart (has_blankRanges h)

theorem startsWord_of_isDigit {c : Char} (h : isDigit c = true) : Lexeme.startsWord c = false := by
  have digits : ∀ n ∈ List.range' 0x30 10, Lexeme.startsWord (Char.ofNat n) = false := by decide
  simp only [isDigit, Bool.and_eq_true, decide_eq_true_eq, Char.le_def] at h
  rw [← Char.ofNat_toNat c]
  exact digits _ (List.mem_range'_1.2 ⟨h.1, Nat.lt_succ_of_le h.2⟩)

theorem isBlank_of_isDigit {c : Char} (h : isDigit c = true) : isBlank c = false := by
  simp only [isDigit, Bool.and_eq_true, decide_eq_true_eq, Char.le_def, UInt32.le_iff_toNat_le,
    Char.reduceVal, UInt32.reduceToNat] at h
  rw [← Bool.not_eq_true]
  intro blank
  simp only [isBlank, Bool.or_eq_true, Bool.and_eq_true, decide_eq_true_eq, beq_iff_eq] at blank
  have code : c.toNat = c.val.toNat := rfl
  omega

theorem isBlank_of_startsWord {c : Char} (h : Lexeme.startsWord c = true) : isBlank c = false := by
  rw [← Bool.not_eq_true]
  intro blank
  simp only [Lexeme.startsWord, isLetter_of_isBlank blank, Bool.false_or, Bool.or_eq_true,
    beq_iff_eq] at h
  obtain rfl | rfl := h <;> exact absurd blank (by decide)

/-- The characters of operators are none of the others that start a lexeme. -/
theorem apart_of_ofChar? {c : Char} {kind : Kind} (h : Kind.ofChar? c = some kind) :
    Lexeme.startsWord c = false ∧ isDigit c = false ∧ isBlank c = false ∧
      (c == '"' || c == '\'') = false := by
  unfold Kind.ofChar? at h
  split at h <;> first | decide | cases h

theorem ofChar?_of_ofPair? {c d : Char} {kind : Kind} (h : Kind.ofPair? c d = some kind) :
    ∃ first, Kind.ofChar? c = some first := by
  unfold Kind.ofPair? at h
  split at h <;> first | exact ⟨_, rfl⟩ | cases h

theorem ofPair?_slash {d : Char} : Kind.ofPair? '/' d = none := by
  unfold Kind.ofPair?
  split <;> simp_all

theorem ofPair?_blank {c : Char} : Kind.ofPair? c ' ' = none := by
  unfold Kind.ofPair?
  split <;> simp_all

/-! ## Lexemes -/

/-- No blank and no comment comes first. -/
theorem triviaLength_cons {c : Char} {rest : List Char} (blank : isBlank c = false)
    (comment : c = '/' → rest.head? ≠ some '/') : triviaLength false (c :: rest) = 0 := by
  rw [triviaLength, if_neg nofun, if_neg (by rw [blank]; exact nofun), if_neg]
  intro both
  rw [Bool.and_eq_true, beq_iff_eq, beq_iff_eq] at both
  exact comment both.1 both.2

/-! ### Numbers -/

namespace Lexeme

variable {cs rest : List Char}

theorem isDigit_of_mem_takeWhile {c : Char} (h : c ∈ cs.takeWhile isDigit) : isDigit c = true :=
  List.all_eq_true.1 List.all_takeWhile c h

theorem fractionPart_eq (cs : List Char) : fractionPart cs = [] ∨
    ∃ d digits, fractionPart cs = '.' :: d :: digits ∧ isDigit d = true ∧
      ∀ c ∈ digits, isDigit c = true := by
  unfold fractionPart
  split
  next d more =>
    split
    next digit =>
      refine .inr ⟨d, more.takeWhile isDigit, ?_, digit, fun c => isDigit_of_mem_takeWhile⟩
      rw [List.takeWhile_cons_of_pos digit]
    next => exact .inl rfl
  next => exact .inl rfl

theorem startsIn_fractionPart (cs : List Char) : StartsIn ['.'] (fractionPart cs) := by
  obtain none | ⟨d, digits, some, -⟩ := fractionPart_eq cs
  · rw [none]
    exact nofun
  · rw [some]
    exact fun c here => Option.some.inj here ▸ List.mem_singleton_self _

theorem fractionPart_append (starts : StartsIn ['e', 'E', 'f', 'F', ' '] rest) :
    fractionPart (fractionPart cs ++ rest) = fractionPart cs := by
  obtain none | ⟨d, digits, some, digit, all⟩ := fractionPart_eq cs
  · rw [none, List.nil_append]
    unfold fractionPart
    split
    · exact absurd (starts '.' rfl) (by decide)
    · rfl
  · have more : (d :: digits ++ rest).takeWhile isDigit = d :: digits :=
      takeWhile_startsIn (by decide) (List.forall_mem_cons.2 ⟨digit, all⟩) starts
    rw [some]
    show (if isDigit d = true then '.' :: (d :: digits ++ rest).takeWhile isDigit else []) = _
    rw [if_pos digit, more]

/-- Without a sign, there are digits only. -/
theorem exponentTail_unsigned (h : ∀ c ∈ cs.head?, c ≠ '+' ∧ c ≠ '-') :
    exponentTail cs = cs.takeWhile isDigit := by
  unfold exponentTail
  split
  · exact absurd rfl (h '+' rfl).1
  · exact absurd rfl (h '-' rfl).2
  · rfl

theorem exponentTail_eq (cs : List Char) : ∃ sign digits, exponentTail cs = sign ++ digits ∧
    (sign = ['+'] ∨ sign = ['-'] ∨ sign = []) ∧ ∀ c ∈ digits, isDigit c = true := by
  unfold exponentTail
  split
  next more => exact ⟨['+'], more.takeWhile isDigit, rfl, .inl rfl, fun c => isDigit_of_mem_takeWhile⟩
  next more =>
    exact ⟨['-'], more.takeWhile isDigit, rfl, .inr (.inl rfl), fun c => isDigit_of_mem_takeWhile⟩
  next => exact ⟨[], cs.takeWhile isDigit, rfl, .inr (.inr rfl), fun c => isDigit_of_mem_takeWhile⟩

theorem exponentTail_append (starts : StartsIn ['f', 'F', ' '] rest) :
    exponentTail (exponentTail cs ++ rest) = exponentTail cs := by
  obtain ⟨sign, digits, same, sign, all⟩ := exponentTail_eq cs
  have more := takeWhile_startsIn (by decide) all starts
  rw [same]
  obtain rfl | rfl | rfl := sign
  · exact congrArg ('+' :: ·) more
  · exact congrArg ('-' :: ·) more
  · refine (exponentTail_unsigned fun c here => ?_).trans more
    cases digits with
    | nil =>
      have unsigned : ∀ c ∈ ['f', 'F', ' '], c ≠ '+' ∧ c ≠ '-' := by simp
      exact unsigned c (starts c here)
    | cons d digits =>
      obtain rfl : d = c := Option.some.inj here
      have digit := all d List.mem_cons_self
      constructor <;> rintro rfl <;> exact absurd digit (by decide)

theorem exponentPart_eq (cs : List Char) : exponentPart cs = [] ∨ ∃ marker more,
    exponentPart cs = marker :: exponentTail more ∧ (marker = 'e' ∨ marker = 'E') := by
  unfold exponentPart
  split
  next more => exact .inr ⟨'e', more, rfl, .inl rfl⟩
  next more => exact .inr ⟨'E', more, rfl, .inr rfl⟩
  next => exact .inl rfl

theorem startsIn_exponentPart (cs : List Char) : StartsIn ['e', 'E'] (exponentPart cs) := by
  obtain none | ⟨marker, more, some, marks⟩ := exponentPart_eq cs
  · rw [none]
    exact nofun
  · rw [some]
    rintro c ⟨⟩
    obtain rfl | rfl := marks <;> decide

theorem exponentPart_append (starts : StartsIn ['f', 'F', ' '] rest) :
    exponentPart (exponentPart cs ++ rest) = exponentPart cs := by
  obtain none | ⟨marker, more, some, marks⟩ := exponentPart_eq cs
  · rw [none, List.nil_append]
    unfold exponentPart
    split
    · exact absurd (starts 'e' rfl) (by decide)
    · exact absurd (starts 'E' rfl) (by decide)
    · rfl
  · rw [some]
    obtain rfl | rfl := marks
    · exact congrArg ('e' :: ·) (exponentTail_append starts)
    · exact congrArg ('E' :: ·) (exponentTail_append starts)

theorem suffixPart_eq (cs : List Char) :
    suffixPart cs = [] ∨ suffixPart cs = ['f'] ∨ suffixPart cs = ['F'] := by
  unfold suffixPart
  split
  · exact .inr (.inl rfl)
  · exact .inr (.inr rfl)
  · exact .inl rfl

theorem startsIn_suffixPart (cs : List Char) : StartsIn ['f', 'F'] (suffixPart cs) := by
  obtain none | some | some := suffixPart_eq cs
  · rw [none]
    exact nofun
  all_goals
    rw [some]
    rintro c ⟨⟩
    decide

theorem suffixPart_append (parted : Parted rest) : suffixPart (suffixPart cs ++ rest) = suffixPart cs := by
  obtain none | some | some := suffixPart_eq cs
  · rw [none, List.nil_append]
    unfold suffixPart
    split
    · exact absurd (parted 'f' rfl) (by decide)
    · exact absurd (parted 'F' rfl) (by decide)
    · rfl
  all_goals
    rw [some]
    rfl

/-- A number is told by its parts, each of them read where the others follow. -/
theorem number_of_parts (c : Char) {whole fraction exponent suffix : List Char}
    (first : (whole ++ (fraction ++ (exponent ++ (suffix ++ rest)))).takeWhile isDigit = whole)
    (second : fractionPart (fraction ++ (exponent ++ (suffix ++ rest))) = fraction)
    (third : exponentPart (exponent ++ (suffix ++ rest)) = exponent)
    (fourth : suffixPart (suffix ++ rest) = suffix) :
    number c (whole ++ (fraction ++ (exponent ++ (suffix ++ rest)))) =
      ⟨.ok (if (fraction ++ exponent ++ suffix).isEmpty then .integer else .fraction,
        c :: whole ++ (fraction ++ exponent ++ suffix)),
        whole.length + (fraction ++ exponent ++ suffix).length⟩ := by
  unfold number
  dsimp only
  rw [first, List.drop_left, second, List.drop_left, third, List.drop_left, fourth]

/-- **The characters of a number are read as this number**, where nothing or a blank follows. -/
theorem number_append (c : Char) (cs : List Char) : ∃ kind tail,
    number c cs = ⟨.ok (kind, c :: tail), tail.length⟩ ∧ kind ≠ .text ∧
      ∀ rest, Parted rest → number c (tail ++ rest) = number c cs := by
  generalize whole : cs.takeWhile isDigit = digits
  generalize point : fractionPart (cs.drop digits.length) = fraction
  generalize marked : exponentPart ((cs.drop digits.length).drop fraction.length) = exponent
  generalize closed :
    suffixPart (((cs.drop digits.length).drop fraction.length).drop exponent.length) = suffix
  have same : number c cs = ⟨.ok (if (fraction ++ exponent ++ suffix).isEmpty then .integer else .fraction,
      c :: digits ++ (fraction ++ exponent ++ suffix)),
      digits.length + (fraction ++ exponent ++ suffix).length⟩ := by
    unfold number
    dsimp only
    rw [whole, point, marked, closed]
  refine ⟨if (fraction ++ exponent ++ suffix).isEmpty then .integer else .fraction,
    digits ++ (fraction ++ exponent ++ suffix), ?_, ?_, fun rest parted => ?_⟩
  · rw [same, List.cons_append, ← List.length_append]
  · split <;> decide
  · have fourth : StartsIn ['f', 'F', ' '] (suffix ++ rest) := by
      refine StartsIn.append ?_ (parted.startsIn.mono (by decide))
      exact closed ▸ (startsIn_suffixPart _).mono (by decide)
    have third : StartsIn ['e', 'E', 'f', 'F', ' '] (exponent ++ (suffix ++ rest)) := by
      refine StartsIn.append ?_ (fourth.mono (by decide))
      exact marked ▸ (startsIn_exponentPart _).mono (by decide)
    have second : StartsIn ['.', 'e', 'E', 'f', 'F', ' '] (fraction ++ (exponent ++ (suffix ++ rest))) := by
      refine StartsIn.append ?_ (third.mono (by decide))
      exact point ▸ (startsIn_fractionPart _).mono (by decide)
    rw [same, List.append_assoc, List.append_assoc, List.append_assoc]
    refine number_of_parts c ?_ ?_ ?_ ?_
    · exact takeWhile_startsIn (by decide) (whole ▸ fun d => isDigit_of_mem_takeWhile) second
    · rw [← point]
      exact fractionPart_append third
    · rw [← marked]
      exact exponentPart_append fourth
    · rw [← closed]
      exact suffixPart_append parted

end Lexeme

/-- **Characters that a word is read from**, where nothing or a blank follows: they are no blank or comment,
and are read as its kind and its text. -/
def Word.ReadAs (w : Word) (cs : List Char) : Prop :=
  ∃ c tail, cs = c :: tail ∧ ∀ rest, Parted rest →
    triviaLength false (c :: (tail ++ rest)) = 0 ∧
      Lexeme.ofChars c (tail ++ rest) = ⟨.ok (w.kind, w.text.toList), tail.length⟩

/-- **A word that is read back** from its spelling. -/
def Word.IsReadable (w : Word) : Prop := w.ReadAs w.spelling

namespace Word

variable {w : Word}

theorem spelling_of_ne (other : w.kind ≠ .text) : w.spelling = w.text.toList := if_neg other

theorem isReadable_word {c : Char} {tail : List Char} (other : w.kind ≠ .text)
    (chars : w.text.toList = c :: tail) (starts : Lexeme.startsWord c = true)
    (continues : ∀ d ∈ tail, Lexeme.continuesWord d = true)
    (kind : (Kind.ofKeyword? w.text).getD .identifier = w.kind) : w.IsReadable := by
  refine ⟨c, tail, (spelling_of_ne other).trans chars, fun rest parted => ⟨?_, ?_⟩⟩
  · refine triviaLength_cons (isBlank_of_startsWord starts) ?_
    rintro rfl
    exact absurd starts (by decide)
  · have front := takeWhile_parted (p := Lexeme.continuesWord) (by decide) continues parted
    have text : String.ofList (c :: tail) = w.text := by rw [← chars, String.ofList_toList]
    rw [Lexeme.ofChars, if_pos starts, Lexeme.word, front, text, kind, chars]

theorem isReadable_char {c : Char} (other : w.kind ≠ .text) (chars : w.text.toList = [c])
    (found : Kind.ofChar? c = some w.kind) : w.IsReadable := by
  obtain ⟨word, digit, blank, quote⟩ := apart_of_ofChar? found
  refine ⟨c, [], (spelling_of_ne other).trans chars, fun rest parted => ⟨?_, ?_⟩⟩
  · refine triviaLength_cons blank fun _ => ?_
    cases rest with
    | nil => exact nofun
    | cons d rest =>
      obtain rfl := parted d rfl
      exact nofun
  · have single : (rest.head?.bind fun next => (Kind.ofPair? c next).map fun kind => (kind, next)) =
        none := by
      cases rest with
      | nil => rfl
      | cons d rest =>
        obtain rfl := parted d rfl
        rw [List.head?_cons, Option.bind_some, ofPair?_blank, Option.map_none]
    rw [Lexeme.ofChars, word, digit, quote, List.nil_append, Lexeme.operator, single, chars]
    dsimp only
    rw [found]
    rfl

theorem isReadable_pair {c d : Char} (other : w.kind ≠ .text) (chars : w.text.toList = [c, d])
    (found : Kind.ofPair? c d = some w.kind) : w.IsReadable := by
  obtain ⟨_, first⟩ := ofChar?_of_ofPair? found
  obtain ⟨word, digit, blank, quote⟩ := apart_of_ofChar? first
  refine ⟨c, [d], (spelling_of_ne other).trans chars, fun rest parted => ⟨?_, ?_⟩⟩
  · refine triviaLength_cons blank ?_
    rintro rfl
    rw [ofPair?_slash] at found
    cases found
  · rw [Lexeme.ofChars, word, digit, quote, Lexeme.operator, List.cons_append, List.head?_cons,
      Option.bind_some, found, chars]
    rfl

/-- A word that is a keyword or operator of its kind. -/
def isFixed (w : Word) : Bool :=
  match w.text.toList with
  | [] => false
  | c :: tail =>
    w.kind != .text &&
      ((Lexeme.startsWord c && tail.all Lexeme.continuesWord && Kind.ofKeyword? w.text == some w.kind) ||
        (tail.isEmpty && Kind.ofChar? c == some w.kind) ||
        (tail.tail.isEmpty && (tail.head?.bind (Kind.ofPair? c)) == some w.kind))

theorem isReadable_of_isFixed (h : w.isFixed = true) : w.IsReadable := by
  unfold isFixed at h
  split at h
  next => cases h
  next c tail chars =>
    simp only [Bool.and_eq_true, Bool.or_eq_true, bne_iff_ne, beq_iff_eq, List.all_eq_true] at h
    obtain ⟨other, (⟨⟨starts, continues⟩, found⟩ | ⟨single, found⟩) | ⟨pair, found⟩⟩ := h
    · refine isReadable_word other chars starts continues ?_
      rw [found]
      rfl
    · obtain rfl := List.isEmpty_iff.1 single
      exact isReadable_char other chars found
    · cases tail with
      | nil => cases found
      | cons d rest =>
        obtain rfl : rest = [] := List.isEmpty_iff.1 pair
        exact isReadable_pair other chars found

theorem isReadable_name {text : String} (h : IsName text) : (name text).IsReadable := by
  obtain ⟨starts, continues, keyword⟩ := h
  cases chars : text.toList with
  | nil =>
    rw [chars] at starts
    cases starts
  | cons c rest =>
    rw [chars] at starts continues
    refine isReadable_word nofun chars starts continues ?_
    rw [show (name text).text = text from rfl, keyword]
    rfl

/-- A number of any form is read from its characters. -/
theorem readAs_number {c : Char} {cs chars : List Char} {kind : Kind} {more : Nat} (digit : isDigit c = true)
    (h : Lexeme.number c cs = ⟨.ok (kind, chars), more⟩) :
    kind ≠ .text ∧ (Word.mk kind (String.ofList chars)).ReadAs chars := by
  obtain ⟨kind', tail, same, other, again⟩ := Lexeme.number_append c cs
  cases h.symm.trans same
  refine ⟨other, c, tail, rfl, fun rest parted => ⟨?_, ?_⟩⟩
  · refine triviaLength_cons (isBlank_of_isDigit digit) ?_
    rintro rfl
    exact absurd digit (by decide)
  · rw [Lexeme.ofChars, startsWord_of_isDigit digit, if_neg Bool.false_ne_true, if_pos digit,
      again rest parted, same, String.toList_ofList]

theorem isReadable_integer {value : Int64} (positive : 0 ≤ value.toInt) :
    (Word.mk .integer (Numeral.wordText value)).IsReadable := by
  have chars : (Numeral.wordText value).toList = Numeral.digits value.toInt.natAbs := by
    rw [Numeral.wordText, Numeral.integerText, if_neg (Int.not_lt.2 positive), String.toList_ofList]
  obtain ⟨c, tail, whole⟩ := List.exists_cons_of_ne_nil (Numeral.digits_ne_nil value.toInt.natAbs)
  rw [whole] at chars
  have digit : ∀ d ∈ c :: tail, isDigit d = true := by
    rw [← whole]
    exact fun d among => Numeral.isDigit_of_mem_digits among
  have number : Lexeme.number c tail = ⟨.ok (.integer, c :: tail), tail.length⟩ := by
    have front := takeWhile_parted (p := isDigit) (by decide)
      (fun d among => digit d (List.mem_cons_of_mem c among)) parted_nil
    rw [List.append_nil] at front
    rw [Lexeme.number, front, List.drop_length]
    simp [Lexeme.fractionPart, Lexeme.exponentPart, Lexeme.suffixPart]
  obtain ⟨other, reads⟩ := readAs_number (digit c List.mem_cons_self) number
  rw [← chars, String.ofList_toList] at reads
  rw [IsReadable, spelling_of_ne other]
  exact reads

theorem quote_not_mem {text : String} (h : ¬('"' ∈ text.toList ∧ '\'' ∈ text.toList)) :
    quote text ∉ text.toList := by
  unfold quote
  split
  next double => exact fun single => h ⟨double, single⟩
  next double => exact double

/-- A string is read from between any quotes that it does not contain. -/
theorem readAs_quoted {text : String} {quote : Char} (quotes : quote = '"' ∨ quote = '\'')
    (free : quote ∉ text.toList) : (Word.mk .text text).ReadAs (quote :: (text.toList ++ [quote])) := by
  refine ⟨quote, text.toList ++ [quote], rfl, fun rest parted => ⟨?_, ?_⟩⟩
  · refine triviaLength_cons ?_ ?_
    · obtain rfl | rfl := quotes <;> decide
    · rintro rfl
      exact absurd quotes (by decide)
  · have body : (text.toList ++ quote :: rest).takeWhile (· != quote) = text.toList := by
      rw [List.takeWhile_append_of_pos, List.takeWhile_cons_of_neg, List.append_nil]
      · rw [bne_self_eq_false]
        exact nofun
      · intro d among
        rw [bne_iff_ne]
        rintro rfl
        exact free among
    have starts : Lexeme.ofChars quote (text.toList ++ quote :: rest) =
        Lexeme.quotedText quote (text.toList ++ quote :: rest) := by
      obtain rfl | rfl := quotes <;> rfl
    rw [List.append_assoc, List.singleton_append, starts, Lexeme.quotedText, body, if_pos (by simp)]
    simp

theorem isReadable_text {text : String} (h : ¬('"' ∈ text.toList ∧ '\'' ∈ text.toList)) :
    (Word.mk .text text).IsReadable := by
  have quotes : quote text = '"' ∨ quote text = '\'' := by
    unfold quote
    split
    · exact .inr rfl
    · exact .inl rfl
  have spelled : (Word.mk .text text).spelling = quote text :: (text.toList ++ [quote text]) := if_pos rfl
  rw [IsReadable, spelled]
  exact readAs_quoted quotes (quote_not_mem h)

theorem isReadable_literal {value : Literal} (h : value.IsWritten) : value.word.IsReadable := by
  cases value with
  | bool value => cases value <;> exact isReadable_of_isFixed (by decide +kernel)
  | int value => exact isReadable_integer h
  | float value => cases h
  | text value => exact isReadable_text h

/-- **How a word is written**: a string between any quotes that it does not contain, all else as it is. -/
def Written (w : Word) (cs : List Char) : Prop :=
  if w.kind = .text then
    ∃ quote, (quote = '"' ∨ quote = '\'') ∧ cs = quote :: (w.text.toList ++ [quote]) ∧
      quote ∉ w.text.toList
  else cs = w.text.toList

/-- A word that can be written, and is read back however it is written. -/
def Rereads (w : Word) : Prop := (∃ cs, w.Written cs) ∧ ∀ cs, w.Written cs → w.ReadAs cs

theorem IsReadable.rereads (h : w.IsReadable) (other : w.kind ≠ .text) : w.Rereads := by
  rw [IsReadable, spelling_of_ne other] at h
  refine ⟨⟨w.text.toList, ?_⟩, fun cs written => ?_⟩
  · rw [Written, if_neg other]
  · rw [Written, if_neg other] at written
    rwa [written]

theorem rereads_text {text : String} {quote : Char} (quotes : quote = '"' ∨ quote = '\'')
    (free : quote ∉ text.toList) : (Word.mk .text text).Rereads := by
  refine ⟨⟨quote :: (text.toList ++ [quote]), ?_⟩, fun cs written => ?_⟩
  · rw [Written, if_pos rfl]
    exact ⟨quote, quotes, rfl, free⟩
  · rw [Written, if_pos rfl] at written
    obtain ⟨quote, quotes, rfl, free⟩ := written
    exact readAs_quoted quotes free

end Word

namespace Lexeme

variable {c : Char} {rest chars : List Char} {kind : Kind} {more : Nat}

theorem rereads_of_word (starts : startsWord c = true) (h : word c rest = ⟨.ok (kind, chars), more⟩) :
    (Word.mk kind (String.ofList chars)).Rereads := by
  cases h
  have other :
      (Kind.ofKeyword? (String.ofList (c :: rest.takeWhile continuesWord))).getD .identifier ≠ .text := by
    cases found : Kind.ofKeyword? (String.ofList (c :: rest.takeWhile continuesWord)) with
    | none => exact nofun
    | some kind => exact (Kind.ofKeyword?_ne found).2
  refine Word.IsReadable.rereads (Word.isReadable_word other String.toList_ofList starts ?_ rfl) other
  exact fun d among => List.all_eq_true.1 List.all_takeWhile d among

theorem rereads_of_quotedText (quotes : c = '"' ∨ c = '\'')
    (h : quotedText c rest = ⟨.ok (kind, chars), more⟩) :
    (Word.mk kind (String.ofList chars)).Rereads := by
  unfold quotedText at h
  dsimp only at h
  split at h
  next =>
    cases h
    refine Word.rereads_text quotes ?_
    rw [String.toList_ofList]
    intro among
    have different := List.all_eq_true.1 List.all_takeWhile c among
    exact bne_iff_ne.1 different rfl
  next => cases h

theorem rereads_of_operator (h : operator c rest = ⟨.ok (kind, chars), more⟩) :
    (Word.mk kind (String.ofList chars)).Rereads := by
  unfold operator at h
  split at h
  next pair next found =>
    cases h
    obtain ⟨d, -, second⟩ := Option.bind_eq_some_iff.1 found
    obtain ⟨pair, known, same⟩ := Option.map_eq_some_iff.1 second
    cases same
    have other := (Kind.ofPair?_ne known).2
    exact Word.IsReadable.rereads (Word.isReadable_pair other String.toList_ofList known) other
  next =>
    split at h
    next kind known =>
      cases h
      have other := (Kind.ofChar?_ne known).2
      exact Word.IsReadable.rereads (Word.isReadable_char other String.toList_ofList known) other
    next => cases h

/-- **What a lexeme spells is read back**, however it is written. -/
theorem rereads_of_ofChars (h : ofChars c rest = ⟨.ok (kind, chars), more⟩) :
    (Word.mk kind (String.ofList chars)).Rereads := by
  unfold ofChars at h
  split at h
  next starts => exact rereads_of_word starts h
  split at h
  next digit =>
    obtain ⟨other, reads⟩ := Word.readAs_number digit h
    refine Word.IsReadable.rereads ?_ other
    rwa [Word.IsReadable, Word.spelling_of_ne other, String.toList_ofList]
  split at h
  next quotes =>
    rw [Bool.or_eq_true, beq_iff_eq, beq_iff_eq] at quotes
    exact rereads_of_quotedText quotes h
  next => exact rereads_of_operator h

end Lexeme

end HostScript
