import HostScript.Proofs.Syntax.Beside
import HostScript.Proofs.Syntax.Lexing

/-!
# Proofs/Syntax/Relexing — printed tokens are read back

Every token of a stream is a word that can be written and is read back however it is written
(`TokenStream.rereads_of_mem`), since it is what some lexeme spells.  So the tokens of a source, written one
after the other with single blanks between them, are the tokens of that text: `tokenize_written`.
-/

namespace HostScript

/-- A token as a word. -/
def Token.word (t : Token) : Word := ⟨t.kind, t.text⟩

/-- The next token is what a lexeme spells. -/
theorem Scanner.exists_lexeme_of_next? {s after : Scanner} {token : Token}
    (h : s.next? = some (.ok token, after)) : ∃ c rest chars more,
      Lexeme.ofChars c rest = ⟨.ok (token.kind, chars), more⟩ ∧ token.text = String.ofList chars := by
  unfold next? at h
  dsimp only at h
  split at h
  next => cases h
  next c rest _ =>
    obtain ⟨same, -⟩ := Prod.mk.inj (Option.some.inj h)
    generalize lexed : Lexeme.ofChars c rest = lexeme at same
    obtain ⟨outcome, more⟩ := lexeme
    cases outcome with
    | error cause => cases same
    | ok spelled =>
      obtain rfl := Except.ok.inj same
      exact ⟨c, rest, spelled.2, more, lexed, rfl⟩

/-- Every token of a stream is what a lexeme spells. -/
theorem TokenStream.exists_lexeme_of_mem {s : Scanner} {token : Token} (h : .ok token ∈ (ofScanner s).items) :
    ∃ c rest chars more,
      Lexeme.ofChars c rest = ⟨.ok (token.kind, chars), more⟩ ∧ token.text = String.ofList chars := by
  induction s using TokenStream.ofScanner.induct with
  | case1 s ended =>
    rw [ofScanner_end ended] at h
    exact absurd h List.not_mem_nil
  | case2 s item after read ih =>
    rw [ofScanner_next read] at h
    obtain rfl | later := List.mem_cons.1 h
    · exact Scanner.exists_lexeme_of_next? read
    · exact ih later

/-- **The tokens of a stream are read back**, however they are written. -/
theorem TokenStream.rereads_of_mem {s : Scanner} {token : Token} (h : .ok token ∈ (ofScanner s).items) :
    token.word.Rereads := by
  obtain ⟨c, rest, chars, more, lexed, text⟩ := exists_lexeme_of_mem h
  rw [Token.word, text]
  exact Lexeme.rereads_of_ofChars lexed

/-- Words that can be written, one by one. -/
theorem exists_written {words : List Word} (all : ∀ w ∈ words, w.Rereads) :
    ∃ pieces, List.Forall₂ Word.Written words pieces := by
  induction words with
  | nil => exact ⟨[], .nil⟩
  | cons w words ih =>
    obtain ⟨⟨⟨cs, written⟩, -⟩, others⟩ := List.forall_mem_cons.1 all
    obtain ⟨pieces, rest⟩ := ih others
    exact ⟨cs :: pieces, .cons written rest⟩

theorem readAs_of_written {words : List Word} {pieces : List (List Char)} (all : ∀ w ∈ words, w.Rereads)
    (written : List.Forall₂ Word.Written words pieces) : List.Forall₂ Word.ReadAs words pieces := by
  induction written with
  | nil => exact .nil
  | cons first _ ih =>
    obtain ⟨head, others⟩ := List.forall_mem_cons.1 all
    exact .cons (head.2 _ first) (ih others)

theorem written_concat {words : List Word} {w : Word} {pieces : List (List Char)}
    (h : List.Forall₂ Word.Written (words ++ [w]) pieces) :
    ∃ front last, pieces = front ++ [last] ∧ List.Forall₂ Word.Written words front ∧
      w.Written last := by
  induction words generalizing pieces with
  | nil =>
    obtain ⟨last, others, written, rest, rfl⟩ := List.forall₂_cons_left_iff.1 h
    obtain rfl := List.forall₂_nil_left_iff.1 rest
    exact ⟨[], last, rfl, .nil, written⟩
  | cons first words ih =>
    obtain ⟨piece, others, written, rest, rfl⟩ := List.forall₂_cons_left_iff.1 h
    obtain ⟨front, last, rfl, all, ends⟩ := ih rest
    exact ⟨piece :: front, last, rfl, .cons written all, ends⟩

/-- Pieces with blanks between them are pieces after blanks, but for the first blank. -/
theorem cons_intercalate (piece : List Char) (pieces : List (List Char)) :
    ' ' :: [' '].intercalate (piece :: pieces) = afterBlanks (piece :: pieces) := by
  induction pieces generalizing piece with
  | nil => simp [afterBlanks]
  | cons next pieces ih =>
    show ' ' :: [' '].intercalate (piece :: next :: pieces) = ' ' :: piece ++ afterBlanks (next :: pieces)
    rw [List.intercalate_cons_cons, ← ih]
    simp

/-- With or without the piece of the end, printed pieces stand after blanks, with at most one blank behind. -/
theorem cons_intercalate_printed {front printed : List (List Char)}
    (h : printed ∈ [front ++ [[]], (front ++ [[]]).dropLast]) : ∃ last, (last = [] ∨ last = [' ']) ∧
      ' ' :: [' '].intercalate printed = afterBlanks front ++ last := by
  rw [List.dropLast_concat] at h
  obtain rfl | rfl : printed = front ++ [[]] ∨ printed = front := by simpa using h
  · refine ⟨[' '], .inr rfl, ?_⟩
    have ended : afterBlanks (front ++ [[]]) = afterBlanks front ++ [' '] := by simp [afterBlanks]
    cases front with
    | nil => rfl
    | cons piece pieces =>
      rw [← ended]
      exact cons_intercalate piece (pieces ++ [[]])
  · cases printed with
    | nil => exact ⟨[' '], .inr rfl, rfl⟩
    | cons piece pieces =>
      refine ⟨[], .inl rfl, ?_⟩
      rw [cons_intercalate, List.append_nil]

theorem map_word_of_reads {tokens : List Token} {words : List Word}
    (all : List.Forall₂ Token.Reads tokens words) : tokens.map Token.word = words := by
  induction all with
  | nil => rfl
  | @cons token w tokens words reads _ ih =>
    have first : token.word = w := by rw [Token.word, reads.kind, reads.text]
    rw [List.map_cons, first, ih]

/-- **Printed tokens are read back**: the tokens of a source can be written, each as it is and strings between
quotes that they do not contain, and however they are written, with single blanks between them, the text has
tokens of the same kinds and texts.  It does not matter whether the end, which is written as nothing, has a
blank before it. -/
theorem tokenize_written {source : String} {tokens : List Token} (h : tokenize source = .ok tokens) :
    (∃ pieces, List.Forall₂ Word.Written (tokens.map Token.word) pieces) ∧
      ∀ pieces, List.Forall₂ Word.Written (tokens.map Token.word) pieces →
        ∀ printed ∈ [pieces, pieces.dropLast], ∃ again,
          tokenize (String.ofList ([' '].intercalate printed)) = .ok again ∧
            again.map Token.word = tokens.map Token.word := by
  obtain ⟨some, items, rfl⟩ := TokenStream.items_of_tokens h
  have all : ∀ w ∈ some.map Token.word, w.Rereads := by
    rw [List.forall_mem_map]
    intro token mem
    refine TokenStream.rereads_of_mem (s := .ofSource source.toList) ?_
    exact items ▸ List.mem_map_of_mem mem
  rw [List.map_append, List.map_singleton]
  generalize (TokenStream.ofSource source.toList).final = final
  refine ⟨?_, fun pieces written printed choice => ?_⟩
  · obtain ⟨pieces, written⟩ := exists_written all
    exact ⟨pieces ++ [[]], List.rel_append written (.cons rfl .nil)⟩
  · obtain ⟨front, ended, rfl, spelled, nothing⟩ := written_concat written
    obtain rfl : ended = [] := nothing
    obtain ⟨last, blank, text⟩ := cons_intercalate_printed choice
    obtain ⟨again, read, reads⟩ := TokenStream.items_of_readAs (readAs_of_written all spelled) blank
      (s := .ofSource ([' '].intercalate printed)) (.inr text)
    refine ⟨again ++ [(TokenStream.ofSource ([' '].intercalate printed)).final.token], ?_, ?_⟩
    · rw [tokenize, String.toList_ofList]
      exact TokenStream.tokens_of_items read
    · rw [List.map_append, map_word_of_reads reads]
      rfl

/-- Adjacent operators, numbers of odd forms, a string with quotes inside, and a comment. -/
def assortedSource : String := "@a<>1e+-2.5f/3 'say \"hi\"' //end\nelseif_*=.5"

theorem tokenize_written_assorted : ∃ tokens, tokenize assortedSource = .ok tokens ∧
    (∃ pieces, List.Forall₂ Word.Written (tokens.map Token.word) pieces) ∧
      ∀ pieces, List.Forall₂ Word.Written (tokens.map Token.word) pieces →
        ∀ printed ∈ [pieces, pieces.dropLast], ∃ again,
          tokenize (String.ofList ([' '].intercalate printed)) = .ok again ∧
            again.map Token.word = tokens.map Token.word := by
  cases read : tokenize assortedSource with
  | ok tokens => exact ⟨tokens, rfl, tokenize_written read⟩
  | error e =>
    have good : (tokenize assortedSource).toBool = true := by decide +kernel
    rw [read] at good
    cases good

end HostScript
