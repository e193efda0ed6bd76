import HostScript.Proofs.Source.Tiling
import HostScript.Proofs.Syntax.Printer

/-!
# Proofs/Syntax/Beside — one place of two streams

Two streams are alike when their tokens say the same, one by one, and errors are at the same places
(`TokenStream.Alike`).  Cursors at one place of such streams hold tokens that say the same and move on
together, up to the first error of each stream (`Cursor.Beside.advance`).  What is read from there agrees
(`Agrees`) when it is good together, or fails for one cause at one token.

Trees that differ in their spans at most are `SameTree`, with one lemma for each construct.
-/

namespace HostScript

/-! ## Streams -/

/-- What a token says: its kind and its text. -/
def Token.said (t : Token) : Kind × String := (t.kind, t.text)

/-- What is said where a token or error is read: nothing by an error. -/
def itemSaid (item : Except LexError Token) : Option (Kind × String) := item.toOption.map Token.said

namespace TokenStream

/-- The tokens and errors of a stream, and the token of its end. -/
def entries (s : TokenStream) : List (Except LexError Token) := s.items ++ [.ok s.final.token]

/-- **Streams that say the same**, where only the end says that it is the end. -/
structure Alike (s t : TokenStream) : Prop where
  same : s.items.map itemSaid = t.items.map itemSaid
  proper : ∀ token, .ok token ∈ s.items → token.kind ≠ .endOfInput

variable {s t : TokenStream}

theorem entries_of_lt {i : Nat} (inside : i < s.items.length) : s.entries[i]? = s.items[i]? :=
  List.getElem?_append_left inside

theorem entries_length : s.entries[s.items.length]? = some (.ok s.final.token) := by
  rw [entries, List.getElem?_append_right (Nat.le_refl _), Nat.sub_self]
  rfl

/-- Reading items one by one, up to an error or to the end. -/
theorem mapM_items (tokens : List Token) (rest : List (Except LexError Token)) :
    (tokens.map Except.ok ++ rest).mapM id =
      rest.mapM id >>= fun more => (.ok (tokens ++ more) : Except LexError (List Token)) := by
  induction tokens with
  | nil => cases read : rest.mapM id <;> rw [List.map_nil, List.nil_append, read] <;> rfl
  | cons token tokens ih =>
    rw [List.map_cons, List.cons_append, List.mapM_cons, ih]
    cases rest.mapM id <;> rfl

/-- The tokens of a stream without errors. -/
theorem tokens_of_items {tokens : List Token} (h : s.items = tokens.map .ok) :
    s.tokens = .ok (tokens ++ [s.final.token]) := by
  rw [TokenStream.tokens, h, ← List.append_nil (tokens.map _), mapM_items, List.mapM_nil]
  show Except.ok (tokens ++ [] ++ _) = _
  rw [List.append_nil]

/-- A stream whose first error is known has no tokens. -/
theorem tokens_of_error {tokens : List Token} {e : LexError} {rest : List (Except LexError Token)}
    (h : s.items = tokens.map .ok ++ .error e :: rest) : s.tokens = .error e := by
  rw [TokenStream.tokens, h, mapM_items, List.mapM_cons]
  rfl

/-- A stream that has tokens has no errors. -/
theorem items_of_tokens {tokens : List Token} (h : s.tokens = .ok tokens) :
    ∃ some, s.items = some.map .ok ∧ tokens = some ++ [s.final.token] := by
  have split : (∃ some : List Token, s.items = some.map .ok) ∨
      ∃ (some : List Token) (e : LexError) (rest : List (Except LexError Token)),
        s.items = some.map .ok ++ .error e :: rest := by
    induction s.items with
    | nil => exact .inl ⟨[], rfl⟩
    | cons item rest ih =>
      cases item with
      | error e => exact .inr ⟨[], e, rest, rfl⟩
      | ok token =>
        obtain ⟨some, rfl⟩ | ⟨some, e, rest, rfl⟩ := ih
        · exact .inl ⟨token :: some, rfl⟩
        · exact .inr ⟨token :: some, e, rest, rfl⟩
  obtain ⟨some, good⟩ | ⟨some, e, rest, bad⟩ := split
  · exact ⟨some, good, (Except.ok.inj ((tokens_of_items good).symm.trans h)).symm⟩
  · cases (tokens_of_error bad).symm.trans h

namespace Alike

theorem entries (h : s.Alike t) (i : Nat) :
    s.entries[i]?.map itemSaid = t.entries[i]?.map itemSaid := by
  have all : s.entries.map itemSaid = t.entries.map itemSaid := by
    rw [TokenStream.entries, TokenStream.entries, List.map_append, List.map_append, h.same]
    rfl
  rw [← List.getElem?_map, all, List.getElem?_map]

end Alike

end TokenStream

/-! ## Cursors -/

/-- **A cursor at a place of a stream**, where no error comes before. -/
structure Cursor.At (s : TokenStream) (i : Nat) (c : Cursor) : Prop where
  current : s.entries[i]? = some (.ok c.current)
  upcoming : c.upcoming = s.items.drop (i + 1)
  final : c.final = s.final
  before : ∃ tokens : List Token, s.items.take i = tokens.map .ok

/-- Cursors at one place of two streams that say the same. -/
def Cursor.Beside (s t : TokenStream) (c d : Cursor) : Prop :=
  s.Alike t ∧ ∃ i, c.At s i ∧ d.At t i

/-- Tokens that say the same at one place of two streams. -/
def Token.Beside (s t : TokenStream) (a b : Token) : Prop :=
  a.said = b.said ∧ ∃ i : Nat, s.entries[i]? = some (.ok a) ∧ t.entries[i]? = some (.ok b)

theorem Token.Beside.text {s t : TokenStream} {a b : Token} (h : a.Beside s t b) : a.text = b.text :=
  congrArg Prod.snd h.1

namespace Cursor

variable {s t : TokenStream} {c d : Cursor} {i : Nat}

/-- At a place before the end a cursor holds an item of the stream. -/
theorem At.item (h : c.At s i) (held : c.kind ≠ .endOfInput) :
    ∃ inside : i < s.items.length, s.items[i] = .ok c.current := by
  have inside : i < s.items.length := by
    have bound := (List.getElem?_eq_some_iff.1 h.current).1
    rw [TokenStream.entries, List.length_append, List.length_singleton] at bound
    refine Nat.lt_of_le_of_ne (Nat.le_of_lt_succ bound) ?_
    rintro rfl
    have last := h.current
    rw [TokenStream.entries_length] at last
    exact held (congrArg Token.kind (Except.ok.inj (Option.some.inj last))).symm
  have found := h.current
  rw [TokenStream.entries_of_lt inside, List.getElem?_eq_getElem inside] at found
  exact ⟨inside, Option.some.inj found⟩

/-- Where a cursor holds an item, no error comes before the next one. -/
theorem At.before_succ (h : c.At s i) (held : c.kind ≠ .endOfInput) :
    ∃ tokens : List Token, s.items.take (i + 1) = tokens.map .ok := by
  obtain ⟨inside, item⟩ := h.item held
  obtain ⟨tokens, before⟩ := h.before
  refine ⟨tokens ++ [c.current], ?_⟩
  rw [List.take_succ_eq_append_getElem inside, before, item, List.map_append]
  rfl

/-- **A cursor moves on by one place**, up to the first error of its stream. -/
theorem At.advance (h : c.At s i) (held : c.kind ≠ .endOfInput) :
    (∃ after, c.advance = (.ok c.current, after) ∧ after.At s (i + 1)) ∨
      ∃ e after, c.advance = (.error e, after) ∧ s.tokens = .error e ∧
        s.entries[i + 1]? = some (.error e) := by
  obtain ⟨inside, item⟩ := h.item held
  obtain ⟨tokens, before⟩ := h.before_succ held
  have next : s.items[i + 1]? = c.upcoming.head? := by rw [h.upcoming, List.head?_drop]
  have whole := List.take_append_drop (i + 1) s.items
  rw [← h.upcoming, before] at whole
  unfold Cursor.advance
  dsimp only
  cases upcoming : c.upcoming with
  | nil =>
    rw [upcoming] at next
    have last : i + 1 = s.items.length :=
      Nat.le_antisymm inside (List.getElem?_eq_none_iff.1 next)
    refine .inl ⟨_, rfl, ⟨?_, ?_, h.final, tokens, before⟩⟩
    · rw [last, TokenStream.entries_length, h.final]
    · exact (List.drop_eq_nil_of_le (by omega)).symm
  | cons item rest =>
    rw [upcoming] at next whole
    cases item with
    | ok token =>
      have further : i + 1 < s.items.length := (List.getElem?_eq_some_iff.1 next).1
      refine .inl ⟨_, rfl, ⟨?_, ?_, h.final, tokens, before⟩⟩
      · rw [TokenStream.entries_of_lt further, next]
        rfl
      · rw [← List.tail_drop, ← h.upcoming, upcoming]
        rfl
    | error e =>
      have further : i + 1 < s.items.length := (List.getElem?_eq_some_iff.1 next).1
      exact .inr ⟨e, _, rfl, TokenStream.tokens_of_error whole.symm,
        (TokenStream.entries_of_lt further).trans next⟩

/-- A cursor at the end of a stream has met no error. -/
theorem At.tokens (h : c.At s i) (proper : ∀ token, .ok token ∈ s.items → token.kind ≠ .endOfInput)
    (ended : c.kind = .endOfInput) : ∃ tokens, s.tokens = .ok tokens := by
  have outside : s.items.length ≤ i := by
    refine Nat.le_of_not_lt fun inside => ?_
    have found := h.current
    rw [TokenStream.entries_of_lt inside] at found
    exact proper c.current (List.mem_of_getElem? found) ended
  obtain ⟨tokens, before⟩ := h.before
  rw [List.take_of_length_le outside] at before
  exact ⟨_, TokenStream.tokens_of_items before⟩

theorem Beside.current (h : Beside s t c d) : c.current.Beside s t d.current := by
  obtain ⟨alike, i, left, right⟩ := h
  have same := alike.entries i
  rw [left.current, right.current] at same
  exact ⟨Option.some.inj (Option.some.inj same), i, left.current, right.current⟩

theorem Beside.kind (h : Beside s t c d) : c.kind = d.kind := congrArg Prod.fst h.current.1

theorem Beside.atEnd (h : Beside s t c d) : c.atEnd = d.atEnd := by
  rw [Cursor.atEnd, Cursor.atEnd, h.kind]

/-- Cursors at one place move on together. -/
theorem Beside.advance (h : Beside s t c d) (held : c.kind ≠ .endOfInput) :
    (∃ after after', c.advance = (.ok c.current, after) ∧ d.advance = (.ok d.current, after') ∧
        Beside s t after after') ∨
      ∃ e e' after after', c.advance = (.error e, after) ∧ d.advance = (.error e', after') ∧
        s.tokens = .error e ∧ t.tokens = .error e' := by
  have kinds := h.kind
  obtain ⟨alike, i, left, right⟩ := h
  have same := alike.entries (i + 1)
  rcases left.advance held with ⟨after, first, next⟩ | ⟨e, after, first, ends, found⟩ <;>
    rcases right.advance (kinds ▸ held) with
      ⟨after', second, next'⟩ | ⟨e', after', second, ends', found'⟩
  · exact .inl ⟨after, after', first, second, alike, i + 1, next, next'⟩
  · rw [next.current, found'] at same
    cases same
  · rw [found, next'.current] at same
    cases same
  · exact .inr ⟨e, e', after, after', first, second, ends, ends'⟩

end Cursor

/-! ## Trees -/

/-- Trees that differ in their spans at most. -/
def SameTree (a b : Node) : Prop := a.bare = b.bare

/-- Lists of trees that differ in their spans at most. -/
def SameTrees (as bs : List Node) : Prop := Node.bareAll as = Node.bareAll bs

/-- Trees that differ in their spans at most, where there are any. -/
def SameTree? (a b : Option Node) : Prop := a.map Node.bare = b.map Node.bare

/-- Parts that differ in the spans of their trees at most, and end alike. -/
def SameEnding {α : Type} (same : α → α → Prop) (a b : α × BranchEnd) : Prop :=
  same a.1 b.1 ∧ a.2 = b.2

/-- Tests and bodies that differ in their spans at most. -/
def SameArms (as bs : List (Node × Node)) : Prop := Node.bareBranches as = Node.bareBranches bs

section Trees

variable {a b first second : Node} {as bs : List Node} {branches others : List (Node × Node)}
  {name name' : String} {params params' : List String} (span other : Span)

namespace SameTree

theorem named (h : name = name') : SameTree (.named span name) (.named other name') :=
  congrArg (Node.named .none) h

theorem member (same : SameTree a b) (h : name = name') (kind : MemberKind) :
    SameTree (.member span a name kind) (.member other b name' kind) :=
  congrArg₂ (Node.member .none · · kind) same h

theorem index (same : SameTree a b) (place : SameTree first second) :
    SameTree (.index span a first) (.index other b second) :=
  congrArg₂ (Node.index .none) same place

theorem binary (left : SameTree a b) (op : BinaryOp) (right : SameTree first second) :
    SameTree (.binary span op a first) (.binary other op b second) :=
  congrArg₂ (Node.binary .none op) left right

theorem unary (same : SameTree a b) (op : UnaryOp) :
    SameTree (.unary span op a) (.unary other op b) :=
  congrArg (Node.unary .none op) same

theorem assign (target : SameTree a b) (value : SameTree first second) :
    SameTree (.assign span a first) (.assign other b second) :=
  congrArg₂ (Node.assign .none) target value

theorem call (callee : SameTree a b) (args : SameTrees as bs) :
    SameTree (.call span a as) (.call other b bs) :=
  congrArg₂ (Node.call .none) callee args

theorem create (target : SameTree a b) (args : SameTrees as bs) :
    SameTree (.create span a as) (.create other b bs) :=
  congrArg₂ (Node.create .none) target args

theorem function (body : SameTree a b) (h : name = name') (names : params = params') :
    SameTree (.function span name params a) (.function other name' params' b) := by
  subst h
  exact congrArg₂ (Node.function .none name) names body

theorem lambda (body : SameTree a b) (names : params = params') :
    SameTree (.lambda span params a) (.lambda other params' b) :=
  congrArg₂ (Node.lambda .none) names body

theorem loop (body : SameTree a b) : SameTree (.loop span a) (.loop other b) :=
  congrArg (Node.loop .none) body

theorem importFrom {alias? alias' : Option String} (path : params = params') (h : alias? = alias') :
    SameTree (.importFrom span params alias?) (.importFrom other params' alias') :=
  congrArg₂ (Node.importFrom .none) path h

theorem plain (same : SameTree a b) : SameTree (.plain span a) (.plain other b) :=
  congrArg (Node.plain .none) same

theorem empty : SameTree (.empty span) (.empty other) :=
  rfl

omit span other in
theorem cons (same : SameTree a b) (rest : SameTrees as bs) : SameTrees (a :: as) (b :: bs) :=
  congrArg₂ List.cons same rest

omit span other in
theorem arm (test : SameTree a b) (body : SameTree first second) (rest : SameArms branches others) :
    SameArms ((a, first) :: branches) ((b, second) :: others) :=
  congrArg₂ List.cons (congrArg₂ Prod.mk test body) rest

omit span other in
theorem some (same : SameTree a b) : SameTree? (.some a) (.some b) := congrArg Option.some same

end SameTree

theorem SameTrees.block (same : SameTrees as bs) : SameTree (.block span as) (.block other bs) :=
  congrArg (Node.block .none) same

namespace SameTree?

variable {init init' : Option Node}

omit span other in
/-- Either there are no trees, or two that are the same. -/
theorem or (h : SameTree? init init') :
    init = none ∧ init' = none ∨ ∃ a b, init = some a ∧ init' = some b ∧ SameTree a b := by
  cases init with
  | none =>
    cases init' with
    | none => exact .inl ⟨rfl, rfl⟩
    | some _ => cases h
  | some a =>
    cases init' with
    | none => cases h
    | some b => exact .inr ⟨a, b, rfl, rfl, Option.some.inj h⟩

theorem declare (h : SameTree? init init') (names : name = name') :
    SameTree (.declare span name init) (.declare other name' init') := by
  obtain ⟨rfl, rfl⟩ | ⟨a, b, rfl, rfl, same⟩ := h.or
  · exact congrArg (Node.declare .none · none) names
  · exact congrArg₂ (Node.declare .none) names (congrArg some same)

theorem leave (h : SameTree? init init') : SameTree (.leave span init) (.leave other init') := by
  obtain ⟨rfl, rfl⟩ | ⟨a, b, rfl, rfl, same⟩ := h.or
  · rfl
  · exact congrArg (fun value => Node.leave .none (some value)) same

theorem give (h : SameTree? init init') : SameTree (.give span init) (.give other init') := by
  obtain ⟨rfl, rfl⟩ | ⟨a, b, rfl, rfl, same⟩ := h.or
  · rfl
  · exact congrArg (fun value => Node.give .none (some value)) same

end SameTree?

theorem SameArms.choose {init init' : Option Node} (arms : SameArms branches others)
    (h : SameTree? init init') :
    SameTree (.choose span branches init) (.choose other others init') := by
  obtain ⟨rfl, rfl⟩ | ⟨a, b, rfl, rfl, same⟩ := h.or
  · exact congrArg (Node.choose .none · none) arms
  · exact congrArg₂ (Node.choose .none) arms (congrArg some same)

end Trees

/-! ## Outcomes -/

/-- An error that stands at a token of a stream. -/
def ParseError.At (s : TokenStream) (i : Nat) (e : ParseError) : Prop :=
  ∃ token, s.entries[i]? = some (.ok token) ∧ e.position = token.position ∧ e.span = token.span

/-- **Outcomes that agree**: they are good together, or the first errors of two streams, or errors of one
cause at one place. -/
inductive Agrees {α β : Type} (s t : TokenStream) (good : α → β → Prop) :
    Except SyntaxError α → Except SyntaxError β → Prop where
  | found {a : α} {b : β} : good a b → Agrees s t good (.ok a) (.ok b)
  | lex {e e' : LexError} : s.tokens = .error e → t.tokens = .error e' →
    Agrees s t good (.error (.lex e)) (.error (.lex e'))
  | parse {e e' : ParseError} {i : Nat} : e.cause = e'.cause → e.At s i → e'.At t i →
    Agrees s t good (.error (.parse e)) (.error (.parse e'))

theorem Agrees.bind {α β γ δ : Type} {s t : TokenStream} {good : α → β → Prop} {fine : γ → δ → Prop}
    {r : Except SyntaxError α} {r' : Except SyntaxError β} {f : α → Except SyntaxError γ}
    {f' : β → Except SyntaxError δ} (h : Agrees s t good r r')
    (next : ∀ a b, good a b → Agrees s t fine (f a) (f' b)) :
    Agrees s t fine (r >>= f) (r' >>= f') := by
  cases h with
  | found both => exact next _ _ both
  | lex first second => exact .lex first second
  | parse cause first second => exact .parse cause first second

end HostScript
