import HostScript.Proofs.Source.Stands
import Mathlib.Data.List.TakeWhile

/-!
# Proofs/Source/Tiling — a stream accounts for every character of its source

A source is its tokens and errors with blanks and comments between them: `Tiles` says so, item by item,
of what is still to be read.  `tiles_ofScanner` proves it of every stream, by the recursion of the
stream, from what the next characters spell (`Lexeme.takes_ofChars`) and from what is passed over
before them (`trivia_take`).  `stream_covers_source` reads it off as a statement about spans.
-/

namespace HostScript

open Text (isBlank isDigit byteLength)

/-! ## Blanks and comments -/

/-- **Blanks and comments**, each comment with the line feed that ends it. -/
inductive Trivia : List Char → Prop where
  | nil : Trivia []
  | blank {c : Char} {rest : List Char} : isBlank c = true → Trivia rest → Trivia (c :: rest)
  | comment {body rest : List Char} : '\n' ∉ body → Trivia rest →
    Trivia ('/' :: '/' :: (body ++ '\n' :: rest))

/-- Blanks and comments at the end of a source, where the last comment may be without a line feed. -/
def TriviaAtEnd (cs : List Char) : Prop :=
  ∃ front last, cs = front ++ last ∧ Trivia front ∧
    (last = [] ∨ ∃ body, last = '/' :: '/' :: body ∧ '\n' ∉ body)

theorem TriviaAtEnd.nil : TriviaAtEnd [] := ⟨[], [], rfl, .nil, .inl rfl⟩

theorem TriviaAtEnd.blank {c : Char} {rest : List Char} (blank : isBlank c = true)
    (h : TriviaAtEnd rest) : TriviaAtEnd (c :: rest) := by
  obtain ⟨front, last, rfl, trivia, ends⟩ := h
  exact ⟨c :: front, last, rfl, .blank blank trivia, ends⟩

theorem TriviaAtEnd.comment {body rest : List Char} (line : '\n' ∉ body) (h : TriviaAtEnd rest) :
    TriviaAtEnd ('/' :: '/' :: (body ++ '\n' :: rest)) := by
  obtain ⟨front, last, rfl, trivia, ends⟩ := h
  refine ⟨'/' :: '/' :: (body ++ '\n' :: front), last, ?_, .comment line trivia, ends⟩
  simp

/-- What is passed over before a token, or up to the end if there is none. -/
def PassedOver (passed left : List Char) : Prop :=
  (left = [] → TriviaAtEnd passed) ∧ (left ≠ [] → Trivia passed)

theorem PassedOver.blank {c : Char} {passed left : List Char} (blank : isBlank c = true)
    (h : PassedOver passed left) : PassedOver (c :: passed) left :=
  ⟨fun ended => (h.1 ended).blank blank, fun more => .blank blank (h.2 more)⟩

/-- What is passed over inside a comment: the rest of its line, and then what follows. -/
def PassedInside (passed left : List Char) : Prop :=
  ('\n' ∉ passed ∧ left = []) ∨
    ∃ body rest, passed = body ++ '\n' :: rest ∧ '\n' ∉ body ∧ PassedOver rest left

theorem PassedInside.open {passed left : List Char} (h : PassedInside passed left) :
    PassedOver ('/' :: '/' :: passed) left := by
  obtain ⟨line, rfl⟩ | ⟨body, rest, rfl, line, trivia⟩ := h
  · exact ⟨fun _ => ⟨[], _, rfl, .nil, .inr ⟨passed, rfl, line⟩⟩, fun more => absurd rfl more⟩
  · exact ⟨fun ended => (trivia.1 ended).comment line, fun more => .comment line (trivia.2 more)⟩

mutual

/-- **Only blanks and comments are passed over** before a token. -/
theorem trivia_take (cs : List Char) :
    PassedOver (cs.take (triviaLength false cs)) (cs.drop (triviaLength false cs)) := by
  match cs with
  | [] => exact ⟨fun _ => .nil, fun more => absurd rfl more⟩
  | c :: rest =>
    rw [triviaLength, if_neg Bool.false_ne_true]
    split
    next blank =>
      rw [Nat.add_comm, List.take_succ_cons, List.drop_succ_cons]
      exact (trivia_take rest).blank blank
    split
    next slashes =>
      obtain ⟨first, second⟩ := Bool.and_eq_true_iff.1 slashes
      obtain rfl := beq_iff_eq.1 first
      match rest with
      | [] => cases beq_iff_eq.1 second
      | d :: rest =>
        obtain rfl := Option.some.inj (beq_iff_eq.1 second)
        rw [triviaLength, if_pos rfl, Nat.add_comm, List.take_succ_cons, List.drop_succ_cons,
          Nat.add_comm, List.take_succ_cons, List.drop_succ_cons]
        exact (comment_take rest).open
    next => exact ⟨nofun, fun _ => .nil⟩

/-- Only the rest of the line, and then blanks and comments are passed over inside a comment. -/
theorem comment_take (cs : List Char) :
    PassedInside (cs.take (triviaLength true cs)) (cs.drop (triviaLength true cs)) := by
  match cs with
  | [] => exact .inl ⟨List.not_mem_nil, rfl⟩
  | c :: rest =>
    rw [triviaLength, if_pos rfl, Nat.add_comm, List.take_succ_cons, List.drop_succ_cons]
    by_cases newline : c = '\n'
    · subst newline
      exact .inr ⟨[], _, rfl, List.not_mem_nil, trivia_take rest⟩
    · have inside : (c != '\n') = true := bne_iff_ne.2 newline
      rw [inside]
      obtain ⟨line, ended⟩ | ⟨body, more, same, line, trivia⟩ := comment_take rest
      · exact .inl ⟨List.not_mem_cons_of_ne_of_not_mem (Ne.symm newline) line, ended⟩
      · rw [same]
        exact .inr ⟨c :: body, more, rfl,
          List.not_mem_cons_of_ne_of_not_mem (Ne.symm newline) line, trivia⟩

end

/-! ## Lexemes -/

/-- What is written where a token or error is read.  A string stands between two equal quotes that it
does not contain, every other token is written as its text; a fault is a character that starts no token
or a quote without another one after it. -/
def Spells : Except LexError Token → List Char → Prop
  | .ok token, cs =>
    token.kind ≠ .endOfInput ∧
      if token.kind = .text then
        ∃ quote, (quote = '"' ∨ quote = '\'') ∧ cs = quote :: (token.text.toList ++ [quote]) ∧
          quote ∉ token.text.toList
      else cs = token.text.toList
  | .error e, cs =>
    match e.cause with
    | .invalidCharacter c => cs = [c]
    | .unterminatedText =>
      ∃ quote body, (quote = '"' ∨ quote = '\'') ∧ cs = quote :: body ∧ quote ∉ body

/-- What a lexeme makes of a token or error, wherever it is read. -/
def Lexeme.item (l : Lexeme) (position : Position) (span : Span) : Except LexError Token :=
  match l.outcome with
  | .ok (kind, chars) => .ok ⟨kind, String.ofList chars, span, position⟩
  | .error cause => .error ⟨cause, position, span⟩

namespace Kind

theorem ofKeyword?_ne {text : String} {kind : Kind} (h : ofKeyword? text = some kind) :
    kind ≠ .endOfInput ∧ kind ≠ .text := by
  unfold ofKeyword? at h
  split at h <;> cases h <;> decide

theorem ofChar?_ne {c : Char} {kind : Kind} (h : ofChar? c = some kind) :
    kind ≠ .endOfInput ∧ kind ≠ .text := by
  unfold ofChar? at h
  split at h <;> cases h <;> decide

theorem ofPair?_ne {c d : Char} {kind : Kind} (h : ofPair? c d = some kind) :
    kind ≠ .endOfInput ∧ kind ≠ .text := by
  unfold ofPair? at h
  split at h <;> cases h <;> decide

end Kind

namespace Lexeme

/-- **A lexeme that takes what it spells** off the characters from `c` on. -/
def Takes (c : Char) (rest : List Char) (l : Lexeme) : Prop :=
  ∀ position span, Spells (l.item position span) (c :: rest.take l.more)

variable {c : Char} {rest : List Char}

/-- A token other than a string takes its own text. -/
theorem takes_ok {kind : Kind} {tail : List Char} {more : Nat}
    (other : kind ≠ .endOfInput ∧ kind ≠ .text) (taken : rest.take more = tail) :
    Takes c rest ⟨.ok (kind, c :: tail), more⟩ := by
  refine fun position span => ⟨other.1, ?_⟩
  show if kind = .text then _ else _
  rw [if_neg other.2, String.toList_ofList, taken]

theorem takes_word (c : Char) (rest : List Char) : Takes c rest (word c rest) := by
  refine takes_ok ?_ (List.prefix_iff_eq_take.1 (List.takeWhile_prefix _)).symm
  cases found : Kind.ofKeyword? (String.ofList (c :: rest.takeWhile continuesWord)) with
  | none => exact ⟨nofun, nofun⟩
  | some kind => exact Kind.ofKeyword?_ne found

theorem fractionPart_prefix (cs : List Char) : fractionPart cs <+: cs := by
  unfold fractionPart
  split
  · split
    · exact List.cons_prefix_cons.2 ⟨rfl, List.takeWhile_prefix _⟩
    · exact List.nil_prefix
  · exact List.nil_prefix

theorem exponentTail_prefix (cs : List Char) : exponentTail cs <+: cs := by
  unfold exponentTail
  split
  · exact List.cons_prefix_cons.2 ⟨rfl, List.takeWhile_prefix _⟩
  · exact List.cons_prefix_cons.2 ⟨rfl, List.takeWhile_prefix _⟩
  · exact List.takeWhile_prefix _

theorem exponentPart_prefix (cs : List Char) : exponentPart cs <+: cs := by
  unfold exponentPart
  split
  · exact List.cons_prefix_cons.2 ⟨rfl, exponentTail_prefix _⟩
  · exact List.cons_prefix_cons.2 ⟨rfl, exponentTail_prefix _⟩
  · exact List.nil_prefix

theorem suffixPart_prefix (cs : List Char) : suffixPart cs <+: cs := by
  unfold suffixPart
  split
  · exact List.cons_prefix_cons.2 ⟨rfl, List.nil_prefix⟩
  · exact List.cons_prefix_cons.2 ⟨rfl, List.nil_prefix⟩
  · exact List.nil_prefix

/-- A part of a text before a part of what is left. -/
theorem append_prefix_of_drop {front back cs : List Char} (first : front <+: cs)
    (second : back <+: cs.drop front.length) : front ++ back <+: cs := by
  obtain ⟨left, rfl⟩ := first
  rw [List.drop_left] at second
  exact List.prefix_append_right_inj front |>.2 second

theorem takes_number (c : Char) (rest : List Char) : Takes c rest (number c rest) := by
  unfold number
  dsimp only
  generalize whole : rest.takeWhile isDigit = digits
  have first : digits <+: rest := whole ▸ List.takeWhile_prefix _
  generalize part : fractionPart (rest.drop digits.length) = fraction
  have second : fraction <+: rest.drop digits.length := part ▸ fractionPart_prefix _
  generalize marked : exponentPart ((rest.drop digits.length).drop fraction.length) = exponent
  have third : exponent <+: (rest.drop digits.length).drop fraction.length :=
    marked ▸ exponentPart_prefix _
  have last := suffixPart_prefix (((rest.drop digits.length).drop fraction.length).drop exponent.length)
  have extra := append_prefix_of_drop first
    (append_prefix_of_drop second (append_prefix_of_drop third last))
  rw [← List.append_assoc fraction] at extra
  refine takes_ok ?_ ?_
  · split <;> decide
  · rw [← List.length_append]
    exact (List.prefix_iff_eq_take.1 extra).symm

theorem takes_quotedText {quote : Char} (quotes : quote = '"' ∨ quote = '\'') (rest : List Char) :
    Takes quote rest (quotedText quote rest) := by
  have absent : quote ∉ rest.takeWhile (· != quote) := fun mem =>
    absurd rfl (bne_iff_ne.1 (List.mem_takeWhile_imp (p := (· != quote)) mem))
  unfold quotedText
  dsimp only
  split
  next closed =>
    have split := List.takeWhile_append_dropWhile (p := (· != quote)) (l := rest)
    cases left : rest.dropWhile (· != quote) with
    | nil =>
      rw [left, List.append_nil] at split
      exact absurd closed (by rw [split]; exact Nat.lt_irrefl _)
    | cons d more =>
      have stops := List.head?_dropWhile_not (· != quote) rest
      rw [left] at split stops
      obtain rfl : d = quote := by simpa using stops
      have taken : rest.take ((rest.takeWhile (· != d)).length + 1) =
          rest.takeWhile (· != d) ++ [d] := by
        conv => enter [1, 2]; rw [← split]
        rw [List.take_length_add_append]
        rfl
      refine fun position span => ⟨nofun, ?_⟩
      show if Kind.text = .text then _ else _
      rw [if_pos rfl, String.toList_ofList, taken]
      exact ⟨d, quotes, rfl, absent⟩
  next whole =>
    have all : rest.takeWhile (· != quote) = rest :=
      (List.takeWhile_prefix _).eq_of_length_le (Nat.le_of_not_lt whole)
    rw [all] at absent
    refine fun position span => ⟨quote, rest, quotes, ?_, absent⟩
    rw [List.take_length]

theorem takes_operator (c : Char) (rest : List Char) : Takes c rest (operator c rest) := by
  unfold operator
  split
  next kind next found =>
    obtain ⟨d, first, second⟩ := Option.bind_eq_some_iff.1 found
    obtain ⟨pair, known, same⟩ := Option.map_eq_some_iff.1 second
    obtain ⟨rfl, rfl⟩ := Prod.mk.inj same
    obtain ⟨more, rfl⟩ := List.head?_eq_some_iff.1 first
    exact takes_ok (Kind.ofPair?_ne known) rfl
  next =>
    split
    next kind known => exact takes_ok (Kind.ofChar?_ne known) rfl
    next => exact fun _ _ => rfl

/-- **The lexeme that starts with a character** takes what it spells. -/
theorem takes_ofChars (c : Char) (rest : List Char) : Takes c rest (ofChars c rest) := by
  unfold ofChars
  split
  · exact takes_word c rest
  split
  · exact takes_number c rest
  split
  next quotes =>
    rw [Bool.or_eq_true, beq_iff_eq, beq_iff_eq] at quotes
    exact takes_quotedText quotes rest
  · exact takes_operator c rest

end Lexeme

/-! ## Scanners -/

/-- The scanner of a source of which some has been read. -/
def Scanner.between (front rest : List Char) : Scanner :=
  ⟨rest, byteLength front, Position.first.past front⟩

namespace Scanner

/-- Past characters, a scanner has read these as well. -/
theorem past_between (n : Nat) (front rest : List Char) :
    past n (between front rest) = between (front ++ rest.take n) (rest.drop n) := by
  induction n generalizing front rest with
  | zero => rw [List.take_zero, List.append_nil, List.drop_zero, past]
  | succ n ih =>
    cases rest with
    | nil =>
      have still := ih front []
      rw [List.take_nil, List.append_nil, List.drop_nil] at still ⊢
      exact still
    | cons c rest =>
      have bumped : (between front (c :: rest)).bump = between (front ++ [c]) rest := by
        unfold bump between
        rw [Text.byteLength_append, Position.past_append]
        rfl
      rw [past, bumped, ih, List.append_assoc, List.take_succ_cons, List.drop_succ_cons,
        List.singleton_append]

theorem pastTrivia_between (front rest : List Char) :
    (between front rest).pastTrivia =
      between (front ++ rest.take (triviaLength false rest)) (rest.drop (triviaLength false rest)) :=
  past_between _ front rest

end Scanner

/-- Where a token or error is written. -/
def itemSpan : Except LexError Token → Span
  | .ok token => token.span
  | .error e => e.span

/-- The position of a token or error. -/
def itemPosition : Except LexError Token → Position
  | .ok token => token.position
  | .error e => e.position

/-- **A token or error that is read off a source** after `front`, with blanks and comments before it. -/
structure ReadsItem (front gap cs : List Char) (item : Except LexError Token) : Prop where
  before : Trivia gap
  some : cs ≠ []
  spells : Spells item cs
  span : itemSpan item = .ofRange (byteLength (front ++ gap)) (byteLength (front ++ gap ++ cs))
  position : itemPosition item = Position.first.past (front ++ gap)

namespace Scanner

variable {front rest : List Char}

/-- At the end of a source there are only blanks and comments. -/
theorem triviaAtEnd_of_next? (h : (between front rest).next? = none) :
    TriviaAtEnd rest ∧ (between front rest).pastTrivia = between (front ++ rest) [] := by
  have passed := trivia_take rest
  have whole := List.take_append_drop (triviaLength false rest) rest
  unfold next? at h
  rw [pastTrivia_between] at h ⊢
  dsimp only at h
  split at h
  next ended =>
    obtain ended : rest.drop (triviaLength false rest) = [] := ended
    rw [ended, List.append_nil] at whole
    rw [whole, ended] at passed ⊢
    exact ⟨passed.1 rfl, rfl⟩
  next => cases h

/-- **A scanner reads an item** off the characters that are still to be read. -/
theorem readsItem_of_next? {item : Except LexError Token} {after : Scanner}
    (h : (between front rest).next? = some (item, after)) :
    ∃ gap cs left, rest = gap ++ (cs ++ left) ∧ ReadsItem front gap cs item ∧
      after = between (front ++ gap ++ cs) left := by
  have passed := trivia_take rest
  have whole := List.take_append_drop (triviaLength false rest) rest
  unfold next? at h
  rw [pastTrivia_between] at h
  generalize rest.take (triviaLength false rest) = gap at *
  generalize rest.drop (triviaLength false rest) = left at *
  dsimp only at h
  split at h
  next => cases h
  next c more starts =>
    obtain starts : left = c :: more := starts
    subst starts
    have stop : Scanner.past (Lexeme.ofChars c more).more (between (front ++ gap) (c :: more)).bump =
        between (front ++ gap ++ c :: more.take (Lexeme.ofChars c more).more)
          (more.drop (Lexeme.ofChars c more).more) :=
      past_between ((Lexeme.ofChars c more).more + 1) (front ++ gap) (c :: more)
    rw [stop] at h
    obtain ⟨same, rfl⟩ := Prod.mk.inj (Option.some.inj h)
    have spells := Lexeme.takes_ofChars c more (Position.first.past (front ++ gap))
      (.ofRange (byteLength (front ++ gap))
        (byteLength (front ++ gap ++ c :: more.take (Lexeme.ofChars c more).more)))
    refine ⟨gap, c :: more.take (Lexeme.ofChars c more).more, more.drop (Lexeme.ofChars c more).more,
      ?_, ?_, rfl⟩
    · rw [List.cons_append, List.take_append_drop, whole]
    · have made : item = (Lexeme.ofChars c more).item _ _ := same.symm
      subst made
      refine ⟨passed.2 nofun, nofun, spells, ?_, ?_⟩
      · unfold Lexeme.item
        split <;> rfl
      · unfold Lexeme.item
        split <;> rfl

end Scanner

/-- **What is still to be read of a source**, item by item. -/
inductive Tiles : List Char → List (Except LexError Token) → EndMark → List Char → Prop where
  | done {front rest : List Char} : TriviaAtEnd rest →
    Tiles front [] ⟨byteLength (front ++ rest), Position.first.past (front ++ rest)⟩ rest
  | item {front gap cs rest : List Char} {item : Except LexError Token}
    {items : List (Except LexError Token)} {final : EndMark} :
    ReadsItem front gap cs item → Tiles (front ++ gap ++ cs) items final rest →
      Tiles front (item :: items) final (gap ++ (cs ++ rest))

/-- **A stream tiles what it is read off.** -/
theorem tiles_ofScanner (front rest : List Char) :
    Tiles front (TokenStream.ofScanner (.between front rest)).items
      (TokenStream.ofScanner (.between front rest)).final rest := by
  generalize begins : Scanner.between front rest = s
  induction s using TokenStream.ofScanner.induct generalizing front rest with
  | case1 s ended =>
    subst begins
    obtain ⟨trivia, last⟩ := Scanner.triviaAtEnd_of_next? ended
    rw [TokenStream.ofScanner_end ended, last]
    exact .done trivia
  | case2 s item after read ih =>
    subst begins
    obtain ⟨gap, cs, left, rfl, reads, rfl⟩ := Scanner.readsItem_of_next? read
    have others := ih _ _ rfl
    rw [TokenStream.ofScanner_next read]
    exact .item reads others

/-! ## Spans -/

/-- **A span that covers a part of a source**: it starts and stops on boundaries of characters, and the
part is what stands between them. -/
def Span.Covers (source : List Char) (span : Span) (part : List Char) : Prop :=
  ∃ front back, source = front ++ part ++ back ∧ span.start = byteLength front ∧
    span.stop = byteLength (front ++ part)

/-- Where the last of some tokens and errors stops, or a place before them if there are none. -/
def lastStop : Nat → List (Except LexError Token) → Nat
  | place, [] => place
  | _, item :: items => lastStop (itemSpan item).stop items

/-- **A stream that accounts for all characters of a source** from a place on. -/
structure Accounts (source : List Char) (place : Nat) (items : List (Except LexError Token))
    (final : EndMark) : Prop where
  /-- Each token and error has a slice of its own, in which it is written. -/
  spelled : ∀ item ∈ items, ∃ part, part ≠ [] ∧ (itemSpan item).Covers source part ∧ Spells item part
  /-- Each stops before the later ones start. -/
  ordered : items.Pairwise fun item later => (itemSpan item).stop ≤ (itemSpan later).start
  /-- Between one and the next, and before the first, there are blanks and comments. -/
  between : ∀ {before after : List (Except LexError Token)} {item : Except LexError Token},
    items = before ++ item :: after →
      ∃ gap, (Span.mk (lastStop place before) (itemSpan item).start).Covers source gap ∧ Trivia gap
  /-- And after the last. -/
  afterLast : ∃ gap, (Span.mk (lastStop place items) (byteLength source)).Covers source gap ∧
    TriviaAtEnd gap
  /-- The end stands there, and is the only token that covers nothing. -/
  ended : final.token.kind = .endOfInput ∧ final.token.span = ⟨byteLength source, byteLength source⟩

namespace Tiles

variable {front rest : List Char} {items : List (Except LexError Token)} {final : EndMark}

theorem span_eq {gap cs : List Char} {item : Except LexError Token}
    (reads : ReadsItem front gap cs item)
    (size : byteLength (front ++ (gap ++ (cs ++ rest))) ≤ Span.limit) :
    itemSpan item = ⟨byteLength (front ++ gap), byteLength (front ++ gap ++ cs)⟩ := by
  simp only [Text.byteLength_append] at size
  rw [reads.span, Span.ofRange, Nat.min_eq_left, Nat.min_eq_left]
  all_goals
    simp only [Text.byteLength_append]
    omega

/-- Every item is spelled by a part of the source. -/
theorem spelled (h : Tiles front items final rest) {item : Except LexError Token}
    (mem : item ∈ items) : ∃ part, Spells item part := by
  induction h with
  | done => exact absurd mem List.not_mem_nil
  | item reads _ ih =>
    rcases List.mem_cons.1 mem with rfl | later
    · exact ⟨_, reads.spells⟩
    · exact ih later

/-- Items start after what has been read before them. -/
theorem le_start (h : Tiles front items final rest) (size : byteLength (front ++ rest) ≤ Span.limit) :
    ∀ item ∈ items, byteLength front ≤ (itemSpan item).start := by
  induction h with
  | done => exact nofun
  | @item front gap cs rest item items final reads _ ih =>
    refine List.forall_mem_cons.2 ⟨?_, fun later mem => ?_⟩
    · rw [span_eq reads size, Text.byteLength_append]
      exact Nat.le_add_right _ _
    · have further := ih (by simpa only [List.append_assoc] using size) later mem
      rw [List.append_assoc, Text.byteLength_append] at further
      exact Nat.le_trans (Nat.le_add_right _ _) further

/-- **What tiles the rest of a source accounts for it.** -/
theorem accounts (h : Tiles front items final rest) (size : byteLength (front ++ rest) ≤ Span.limit) :
    Accounts (front ++ rest) (byteLength front) items final := by
  induction h with
  | @done front rest trivia =>
    refine ⟨nofun, .nil, ?_, ⟨rest, ⟨front, [], (List.append_nil _).symm, rfl, rfl⟩, trivia⟩, rfl, ?_⟩
    · rintro before after item none
      exact absurd none (by simp)
    · show Span.ofRange _ _ = _
      rw [Span.ofRange, Nat.min_eq_left size]
  | @item front gap cs rest item items final reads others ih =>
    have regroup : front ++ (gap ++ (cs ++ rest)) = front ++ gap ++ cs ++ rest := by
      simp only [List.append_assoc]
    have span := span_eq reads size
    rw [regroup] at size ⊢
    have inner := ih size
    have start : (itemSpan item).start = byteLength (front ++ gap) := congrArg Span.start span
    have stop : (itemSpan item).stop = byteLength (front ++ gap ++ cs) := congrArg Span.stop span
    refine ⟨?_, ?_, ?_, ?_, inner.ended⟩
    · exact List.forall_mem_cons.2
        ⟨⟨cs, reads.some, ⟨front ++ gap, rest, rfl, start, stop⟩, reads.spells⟩, inner.spelled⟩
    · exact .cons (fun later mem => stop ▸ others.le_start size later mem) inner.ordered
    · rintro (_ | ⟨first, before⟩) after next split
      · obtain ⟨rfl, rfl⟩ := List.cons_eq_cons.1 split
        refine ⟨gap, ⟨front, cs ++ rest, ?_, rfl, start⟩, reads.before⟩
        rw [List.append_assoc]
      · obtain ⟨rfl, later⟩ := List.cons_eq_cons.1 split
        rw [lastStop, stop]
        exact inner.between later
    · rw [lastStop, stop]
      exact inner.afterLast

end Tiles

/-! ## Positions -/

/-- The positions of tokens and errors, and that of the end. -/
def positions (items : List (Except LexError Token)) (final : EndMark) : List Position :=
  items.map itemPosition ++ [final.position]

namespace Tiles

variable {front rest : List Char} {items : List (Except LexError Token)} {final : EndMark}

/-- Items stand at spots after what has been read before them, and so does the end. -/
theorem spot_of_mem (h : Tiles front items final rest) {p : Position}
    (mem : p ∈ positions items final) :
    ∃ spot : Spot (front ++ rest), p = spot.position ∧ byteLength front ≤ spot.offset := by
  induction h with
  | @done front rest _ =>
    obtain rfl := List.mem_singleton.1 mem
    refine ⟨⟨front ++ rest, [], (List.append_nil _).symm⟩, rfl, ?_⟩
    rw [Spot.offset, Text.byteLength_append]
    exact Nat.le_add_right _ _
  | @item front gap cs rest item items final reads _ ih =>
    have regroup : front ++ (gap ++ (cs ++ rest)) = front ++ gap ++ cs ++ rest := by
      simp only [List.append_assoc]
    rcases List.mem_cons.1 mem with rfl | later
    · refine ⟨⟨front ++ gap, cs ++ rest, (List.append_assoc _ _ _).symm⟩, reads.position, ?_⟩
      rw [Spot.offset, Text.byteLength_append]
      exact Nat.le_add_right _ _
    · rw [regroup]
      obtain ⟨spot, position, after⟩ := ih later
      refine ⟨spot, position, Nat.le_trans ?_ after⟩
      rw [List.append_assoc, Text.byteLength_append]
      exact Nat.le_add_right _ _

/-- **No two tokens or errors have one position**, nor does one have that of the end. -/
theorem nodup_positions (h : Tiles front items final rest) : (positions items final).Nodup := by
  induction h with
  | done => exact List.nodup_cons.2 ⟨List.not_mem_nil, .nil⟩
  | @item front gap cs rest item items final reads others ih =>
    refine List.nodup_cons.2 ⟨fun mem => ?_, ih⟩
    obtain ⟨spot, position, after⟩ := others.spot_of_mem mem
    have same : byteLength (front ++ gap) = spot.offset :=
      @Report.offset_eq_of_position _ ⟨front ++ gap, cs ++ rest, List.append_assoc _ _ _⟩ spot
        (reads.position.symm.trans position)
    have wide : 0 < byteLength cs := by
      obtain ⟨c, more, rfl⟩ := List.exists_cons_of_ne_nil reads.some
      exact Nat.lt_of_lt_of_le c.utf8Size_pos (Nat.le_add_right _ _)
    rw [← same, Text.byteLength_append (front ++ gap)] at after
    omega

end Tiles

/-! ## Asking for one token after another -/

namespace Scanner

/-- The token or error that a scanner answers with, the end when nothing else is left, and the place
after it. -/
def pull (s : Scanner) : Except LexError Token × Scanner :=
  match s.next? with
  | some read => read
  | none => (.ok (EndMark.token ⟨s.pastTrivia.offset, s.pastTrivia.position⟩), s.pastTrivia)

/-- What a scanner answers with when it has answered a number of times before. -/
def answer (s : Scanner) : Nat → Except LexError Token
  | 0 => s.pull.1
  | n + 1 => s.pull.2.answer n

/-- At the end a scanner answers with the end and stays there. -/
theorem answer_of_rest_eq_nil {s : Scanner} (ended : s.rest = []) (n : Nat) :
    s.answer n = .ok (EndMark.token ⟨s.offset, s.position⟩) := by
  have still : s.pastTrivia = s := by
    rw [pastTrivia, ended]
    rfl
  have last : s.pull = (.ok (EndMark.token ⟨s.offset, s.position⟩), s) := by
    unfold pull next?
    dsimp only
    rw [still, ended]
  induction n with
  | zero => rw [answer, last]
  | succ n ih => rw [answer, last, ih]

/-- **A scanner answers with the items of its stream, and then with the end for ever.** -/
theorem answer_eq (s : Scanner) (n : Nat) :
    s.answer n =
      ((TokenStream.ofScanner s).items[n]?).getD (.ok (TokenStream.ofScanner s).final.token) := by
  induction s using TokenStream.ofScanner.induct generalizing n with
  | case1 s ended =>
    have last : s.pastTrivia.rest = [] := by
      unfold next? at ended
      dsimp only at ended
      split at ended
      · assumption
      · cases ended
    have pulled : s.pull =
        (.ok (EndMark.token ⟨s.pastTrivia.offset, s.pastTrivia.position⟩), s.pastTrivia) := by
      rw [pull, ended]
    rw [TokenStream.ofScanner_end ended]
    cases n with
    | zero => rw [answer, pulled]; rfl
    | succ n => rw [answer, pulled, answer_of_rest_eq_nil last]; rfl
  | case2 s item after read ih =>
    have pulled : s.pull = (item, after) := by rw [pull, read]
    rw [TokenStream.ofScanner_next read]
    cases n with
    | zero => rw [answer, pulled]; rfl
    | succ n => rw [answer, pulled, ih]; rfl

end Scanner

/-! ## Sources -/

theorem tiles_ofSource (source : List Char) :
    Tiles [] (TokenStream.ofSource source).items (TokenStream.ofSource source).final source :=
  tiles_ofScanner [] source

/-- **A stream covers its source.**  The slices of its tokens and errors are disjoint and in order, each
is spelled by its slice, there is nothing but blanks and comments around them, and whoever asks for one
after another is given them all, and then the end for ever. -/
theorem stream_covers_source (source : List Char) (size : byteLength source ≤ Span.limit) :
    Accounts source 0 (TokenStream.ofSource source).items (TokenStream.ofSource source).final ∧
      ∀ n, (Scanner.ofSource source).answer n =
        ((TokenStream.ofSource source).items[n]?).getD (.ok (TokenStream.ofSource source).final.token) :=
  ⟨(tiles_ofSource source).accounts size, (Scanner.ofSource source).answer_eq⟩

/-- Letters of two bytes, a comment, a character that starts no token and a string that is not closed. -/
theorem stream_covers_source_malformed :
    Accounts "'ü\"' // é\n#x \"y".toList 0
        [.ok ⟨.text, "ü\"", ⟨0, 5⟩, ⟨1, 1⟩⟩, .error ⟨.invalidCharacter '#', ⟨2, 1⟩, ⟨12, 13⟩⟩,
          .ok ⟨.identifier, "x", ⟨13, 14⟩, ⟨2, 2⟩⟩, .error ⟨.unterminatedText, ⟨2, 4⟩, ⟨15, 17⟩⟩]
        ⟨17, ⟨2, 6⟩⟩ ∧
      (Scanner.ofSource "'ü\"' // é\n#x \"y".toList).answer 9 =
        .ok ⟨.endOfInput, "", ⟨17, 17⟩, ⟨2, 6⟩⟩ := by
  have items : (TokenStream.ofSource "'ü\"' // é\n#x \"y".toList).items =
      [.ok ⟨.text, "ü\"", ⟨0, 5⟩, ⟨1, 1⟩⟩, .error ⟨.invalidCharacter '#', ⟨2, 1⟩, ⟨12, 13⟩⟩,
        .ok ⟨.identifier, "x", ⟨13, 14⟩, ⟨2, 2⟩⟩,
        .error ⟨.unterminatedText, ⟨2, 4⟩, ⟨15, 17⟩⟩] := by decide +kernel
  have final : (TokenStream.ofSource "'ü\"' // é\n#x \"y".toList).final = ⟨17, ⟨2, 6⟩⟩ := by
    decide +kernel
  have covers := stream_covers_source "'ü\"' // é\n#x \"y".toList (by decide +kernel)
  rw [items, final] at covers
  refine ⟨covers.1, ?_⟩
  rw [covers.2 9]
  rfl

end HostScript
