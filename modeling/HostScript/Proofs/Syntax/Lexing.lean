import HostScript.Proofs.Syntax.Lexemes
import HostScript.Proofs.Syntax.Rules
import Mathlib.Data.List.Forall2

/-!
# Proofs/Syntax/Lexing — printed words are read back

A scanner before a readable word reads it and stops behind it, so the tokens of a text of readable words are
these words.  `Cursor.ofSource_spell` says so of a cursor: it has the words before it, and then the end.  The
words of canonical trees are readable (`Canonical.readable`).
-/

namespace HostScript

/-- Words that are all read back. -/
def Readable (words : List Word) : Prop := ∀ w ∈ words, w.IsReadable

@[simp] theorem readable_nil : Readable [] := nofun

@[simp] theorem readable_cons {w : Word} {words : List Word} :
    Readable (w :: words) ↔ w.IsReadable ∧ Readable words := List.forall_mem_cons

@[simp] theorem readable_append {words others : List Word} :
    Readable (words ++ others) ↔ Readable words ∧ Readable others := List.forall_mem_append

/-! ## Scanners -/

/-- A token with the kind and the text of a word. -/
structure Token.Reads (token : Token) (w : Word) : Prop where
  kind : token.kind = w.kind
  text : token.text = w.text

namespace Scanner

theorem rest_bump (s : Scanner) : s.bump.rest = s.rest.tail := by
  rw [bump]
  split
  next same => rw [same, List.tail_nil]
  next same => rw [same, List.tail_cons]

theorem rest_past (n : Nat) (s : Scanner) : (past n s).rest = s.rest.drop n := by
  induction n generalizing s with
  | zero => rfl
  | succ n ih => rw [past, ih, rest_bump, List.drop_tail]

/-- A word is the next token where it comes first, or after one blank. -/
theorem next?_of_readAs {s : Scanner} {w : Word} {cs rest : List Char} (reads : w.ReadAs cs)
    (parted : Parted rest) (h : s.rest = cs ++ rest ∨ s.rest = ' ' :: (cs ++ rest)) :
    ∃ token after, s.next? = some (.ok token, after) ∧ token.Reads w ∧ after.rest = rest := by
  obtain ⟨c, tail, rfl, reads⟩ := reads
  obtain ⟨trivia, lexeme⟩ := reads rest parted
  have starts : s.pastTrivia.rest = c :: (tail ++ rest) := by
    rw [pastTrivia, rest_past]
    obtain same | same := h <;> rw [same]
    · rw [List.cons_append, trivia, List.drop_zero]
    · rw [triviaLength, if_neg Bool.false_ne_true, if_pos (by decide), List.cons_append, trivia]
      rfl
  rw [next?]
  split
  next same => exact absurd (starts.symm.trans same) (List.cons_ne_nil _ _)
  next d more same =>
    obtain ⟨rfl, rfl⟩ := List.cons.inj (starts.symm.trans same)
    rw [lexeme]
    refine ⟨_, _, rfl, ⟨rfl, String.ofList_toList⟩, ?_⟩
    rw [rest_past, rest_bump, starts, List.tail_cons, List.drop_left]

/-- There is no further token where there is nothing but a blank. -/
theorem next?_of_blank {s : Scanner} (h : s.rest = [] ∨ s.rest = [' ']) : s.next? = none := by
  have ended : s.pastTrivia.rest = [] := by
    rw [pastTrivia, rest_past]
    obtain same | same := h <;> rw [same]
    · rfl
    · rfl
  rw [next?]
  split
  next => rfl
  next same => exact absurd (same.symm.trans ended) (List.cons_ne_nil _ _)

end Scanner

/-- Pieces of a text, each after a blank. -/
def afterBlanks (pieces : List (List Char)) : List Char := pieces.flatMap (' ' :: ·)

theorem parted_afterBlanks (pieces : List (List Char)) {last : List Char} (parted : Parted last) :
    Parted (afterBlanks pieces ++ last) := by
  cases pieces with
  | nil => exact parted
  | cons => exact parted_cons

/-- **The tokens of words** that are written one after the other, with blanks between them. -/
theorem TokenStream.items_of_readAs {words : List Word} {pieces : List (List Char)}
    (all : List.Forall₂ Word.ReadAs words pieces) {last : List Char} (ends : last = [] ∨ last = [' '])
    {s : Scanner} (h : s.rest = afterBlanks pieces ++ last ∨ ' ' :: s.rest = afterBlanks pieces ++ last) :
    ∃ tokens : List Token, (ofScanner s).items = tokens.map .ok ∧
      List.Forall₂ Token.Reads tokens words := by
  induction all generalizing s with
  | nil =>
    have blank : s.rest = [] ∨ s.rest = [' '] := by
      rw [show afterBlanks [] ++ last = last from rfl] at h
      obtain rfl | rfl := ends
      · exact .inl (h.resolve_right (List.cons_ne_nil _ _))
      · exact h.symm.imp_left fun h => (List.cons.inj h).2
    refine ⟨[], ?_, .nil⟩
    rw [ofScanner_end (Scanner.next?_of_blank blank)]
    rfl
  | @cons w piece words pieces reads _ ih =>
    have parted : Parted (afterBlanks pieces ++ last) := by
      refine parted_afterBlanks pieces ?_
      obtain rfl | rfl := ends
      · exact parted_nil
      · exact parted_cons
    have starts : s.rest = piece ++ (afterBlanks pieces ++ last) ∨
        s.rest = ' ' :: (piece ++ (afterBlanks pieces ++ last)) := by
      have same : afterBlanks (piece :: pieces) ++ last = ' ' :: (piece ++ (afterBlanks pieces ++ last)) := by
        simp [afterBlanks]
      rw [same] at h
      exact h.symm.imp_left fun h => (List.cons.inj h).2
    obtain ⟨token, after, next, read, rest⟩ := Scanner.next?_of_readAs reads parted starts
    obtain ⟨tokens, items, others⟩ := ih (s := after) (.inl rest)
    refine ⟨token :: tokens, ?_, .cons read others⟩
    rw [ofScanner_next next]
    exact congrArg (List.cons (.ok token)) items

theorem cons_spell {w : Word} {words : List Word} :
    ' ' :: spell (w :: words) = afterBlanks ((w :: words).map Word.spelling) := by
  induction words generalizing w with
  | nil => simp [afterBlanks, spell]
  | cons next words ih =>
    show ' ' :: (w.spelling ++ ' ' :: spell (next :: words)) = _
    rw [ih]
    rfl

theorem Readable.readAs {words : List Word} (h : Readable words) :
    List.Forall₂ Word.ReadAs words (words.map Word.spelling) := by
  rw [List.forall₂_map_right_iff, List.forall₂_same]
  exact h

/-- The tokens of a text of readable words. -/
theorem TokenStream.items_spell {words : List Word} (readable : Readable words) :
    ∃ tokens : List Token, (ofSource (spell words)).items = tokens.map .ok ∧
      List.Forall₂ Token.Reads tokens words := by
  cases words with
  | nil => exact items_of_readAs .nil (.inl rfl) (.inl rfl)
  | cons w words =>
    refine items_of_readAs readable.readAs (.inl rfl) (.inr ?_)
    rw [List.append_nil]
    exact cons_spell

/-! ## Cursors -/

theorem Cursor.advance_nil {c : Cursor} (h : c.upcoming = []) :
    c.advance = (.ok c.current, ⟨c.final.token, [], c.final, c.current.span⟩) := by
  rw [advance, h]

theorem Cursor.advance_cons {c : Cursor} {token : Token} {rest : List (Except LexError Token)}
    (h : c.upcoming = .ok token :: rest) :
    c.advance = (.ok c.current, ⟨token, rest, c.final, c.current.span⟩) := by
  rw [advance, h]

/-- Tokens before a cursor that are read as words. -/
theorem Cursor.spells_of_reads {tokens : List Token} {words : List Word}
    (all : List.Forall₂ Token.Reads tokens words) {c : Cursor} {w : Word} (head : c.current.Reads w)
    (h : c.upcoming = tokens.map .ok) :
    ∃ last, c.Spells (w :: words) last ∧ last.kind = .endOfInput := by
  induction all generalizing c w with
  | nil => exact ⟨_, .cons ⟨head.kind, head.text, advance_nil h⟩ .nil, rfl⟩
  | @cons token next tokens words reads _ ih =>
    have step := advance_cons h
    obtain ⟨last, spells, ends⟩ := ih (c := ⟨token, tokens.map .ok, c.final, c.current.span⟩) reads rfl
    exact ⟨last, .cons ⟨head.kind, head.text, step⟩ spells, ends⟩

/-- **A text of readable words is read**: a cursor on it has these words before it, and then the end. -/
theorem Cursor.ofSource_spell {words : List Word} (readable : Readable words) :
    ∃ c last, Cursor.ofSource (String.ofList (spell words)) = .ok c ∧ c.Spells words last ∧
      last.kind = .endOfInput := by
  obtain ⟨tokens, items, all⟩ := TokenStream.items_spell readable
  rw [ofSource, String.toList_ofList]
  cases all with
  | nil =>
    rw [items]
    exact ⟨_, _, rfl, .nil, rfl⟩
  | cons reads all =>
    rw [items]
    obtain ⟨last, spells, ends⟩ := spells_of_reads all (c := ⟨_, _, _, _⟩) reads rfl
    exact ⟨_, last, rfl, spells, ends⟩

/-! ## Trees -/

@[simp] theorem Word.isReadable_fixed {kind : Kind}
    (h : kind ∉ [.identifier, .integer, .fraction, .text, .endOfInput]) :
    (Word.fixed kind).IsReadable := by
  refine isReadable_of_isFixed ?_
  revert h
  cases kind <;> decide +kernel

@[simp] theorem Word.isReadable_binaryOp (op : BinaryOp) : (Word.fixed op.kind).IsReadable := by
  cases op <;> exact isReadable_fixed (by decide)

@[simp] theorem Word.isReadable_unaryOp (op : UnaryOp) : (Word.fixed op.kind).IsReadable := by
  cases op <;> exact isReadable_fixed (by decide)

section Words

variable {words : List Word} {names : List String}

@[simp] theorem readable_separator {α : Type} (rest : List α) : Readable (separator rest) := by
  cases rest <;> simp [separator]

theorem readable_nameWords (all : ∀ name ∈ names, IsName name) : Readable (nameWords names) := by
  induction names with
  | nil => exact readable_nil
  | cons name rest ih =>
    obtain ⟨head, others⟩ := List.forall_mem_cons.1 all
    simp [nameWords, Word.isReadable_name head, ih others]

theorem readable_paramWords (all : ∀ name ∈ names, IsName name) : Readable (paramWords names) := by
  simp [paramWords, readable_nameWords all]

theorem readable_pathWords (all : ∀ name ∈ names, IsName name) : Readable (pathWords names) := by
  have points {names : List String} (all : ∀ name ∈ names, IsName name) :
      Readable (pointWords names) := by
    induction names with
    | nil => exact readable_nil
    | cons name rest ih =>
      obtain ⟨head, others⟩ := List.forall_mem_cons.1 all
      simp [pointWords, Word.isReadable_name head, ih others]
  cases names with
  | nil => exact readable_nil
  | cons name rest =>
    obtain ⟨head, others⟩ := List.forall_mem_cons.1 all
    simp [pathWords, Word.isReadable_name head, points others]

theorem readable_aliasWords {alias? : Option String} (all : ∀ name ∈ alias?, IsName name) :
    Readable (aliasWords alias?) := by
  cases alias? with
  | none => exact readable_nil
  | some name => simp [aliasWords, Word.isReadable_name (all name rfl)]

@[simp] theorem readable_enclosed : Readable (Node.enclosed words) ↔ Readable words := by
  simp [Node.enclosed]

theorem readable_operandWords {demand : Nat} {e : Node} (h : Readable words) :
    Readable (Node.operandWords demand e words) := by
  unfold Node.operandWords
  split
  · exact readable_enclosed.2 h
  · exact h

theorem readable_calleeWords {e : Node} (h : Readable words) : Readable (Node.calleeWords e words) := by
  unfold Node.calleeWords
  split
  · exact readable_enclosed.2 h
  · exact readable_operandWords h

end Words

theorem readable_argumentWords {args : List Node} (all : ∀ arg ∈ args, Readable arg.words) :
    Readable (Node.argumentWords args) := by
  induction args with
  | nil => exact readable_nil
  | cons arg rest ih =>
    obtain ⟨head, others⟩ := List.forall_mem_cons.1 all
    simp [Node.argumentWords, head, ih others]

theorem readable_statementWords {statements : List Node}
    (all : ∀ statement ∈ statements, Readable statement.words) :
    Readable (Node.statementWords statements) := by
  induction statements with
  | nil => exact readable_nil
  | cons statement rest ih =>
    obtain ⟨head, others⟩ := List.forall_mem_cons.1 all
    simp [Node.statementWords, head, ih others]

theorem readable_branchWords {keyword : Kind} (word : (Word.fixed keyword).IsReadable)
    {branches : List (Node × Node)} (tests : ∀ branch ∈ branches, Readable branch.1.words)
    (bodies : ∀ branch ∈ branches, Readable branch.2.words) :
    Readable (Node.branchWords keyword branches) := by
  induction branches generalizing keyword with
  | nil => exact readable_nil
  | cons branch rest ih =>
    obtain ⟨test, tests⟩ := List.forall_mem_cons.1 tests
    obtain ⟨body, bodies⟩ := List.forall_mem_cons.1 bodies
    have next : (Word.fixed .elseIfWord).IsReadable := Word.isReadable_fixed (by decide)
    have more := ih next tests bodies
    exact readable_cons.2 ⟨word, readable_append.2 ⟨test, readable_append.2 ⟨body, more⟩⟩⟩

/-- **The words of canonical trees are read back.** -/
theorem Canonical.readable {role : Role} {e : Node} (h : Canonical role e) : Readable e.words := by
  induction h with
  | literal written => simp [Node.words, Word.isReadable_literal written]
  | named name => simp [Node.words, Word.isReadable_name name]
  | member _ name ih => simp [Node.words, Word.isReadable_name name, readable_operandWords ih]
  | index _ _ ih place => simp [Node.words, readable_operandWords ih, place]
  | binary _ _ left right =>
    simp [Node.words, readable_operandWords left, readable_operandWords right]
  | unary _ ih => simp [Node.words, readable_operandWords ih]
  | assign _ _ target value => simp [Node.words, readable_operandWords target, value]
  | call _ _ callee args => simp [Node.words, readable_calleeWords callee, readable_argumentWords args]
  | create _ _ target args => simp [Node.words, target, readable_argumentWords args]
  | lambda params _ body => simp [Node.words, readable_paramWords params, body]
  | method _ name ih => simp [Node.words, Word.isReadable_name name, readable_operandWords ih]
  | called _ ih => exact ih
  | root name => simp [Node.words, Word.isReadable_name name]
  | branch _ name ih => simp [Node.words, Word.isReadable_name name, readable_operandWords ih]
  | block _ all => simp [Node.words, readable_statementWords all]
  | nested _ ih => exact ih
  | plain _ ih => simp [Node.words, ih]
  | empty => simp [Node.words]
  | declare name => simp [Node.words, Word.isReadable_name name]
  | initialized name _ ih => simp [Node.words, Word.isReadable_name name, ih]
  | function name params _ body =>
    simp [Node.words, Word.isReadable_name name, readable_paramWords params, body]
  | choose _ _ _ tests bodies =>
    exact readable_branchWords (Word.isReadable_fixed (by decide)) tests bodies
  | chooseElse _ _ _ _ tests bodies otherwise =>
    have keyword : (Word.fixed .ifWord).IsReadable := Word.isReadable_fixed (by decide)
    have arms := readable_branchWords keyword tests bodies
    simp [Node.words, arms, otherwise]
  | loop _ body => simp [Node.words, body]
  | leave => simp [Node.words]
  | leaveWith _ ih => simp [Node.words, ih]
  | give => simp [Node.words]
  | giveBack _ ih => simp [Node.words, ih]
  | importFrom _ path alias? =>
    simp [Node.words, readable_pathWords path, readable_aliasWords alias?]

end HostScript
