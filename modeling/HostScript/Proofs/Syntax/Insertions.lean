import HostScript.Proofs.Syntax.Layout
import HostScript.Proofs.Syntax.Terminators

/-!
# Proofs/Syntax/Insertions — streams with a terminator more

A terminator is inserted before a word that closes a block, or before the end (`Insertion`).  A cursor of
the one stream and a cursor of the other stand at tokens that say the same as long as the word is ahead and
again when it is behind (`Insertion.Aligned`).  In between the first cursor is at the word, while the second
one is at the terminator, or has taken it (`Insertion.Faces`).

What is read from there carries over (`Insertion.Carries`): it is good together, or fails for one cause at
one token, or the first reading fails at the word itself.
-/

namespace HostScript

/-- The words that close a block, and the end, which closes a source. -/
def Kind.closes : Kind → Bool
  | .rightBrace | .endWord | .endOfInput => true
  | _ => false

/-- What ends a statement wherever it stands. -/
def Kind.limits (kind : Kind) : Bool := kind = .semicolon || kind.closes

/-- **Tokens into which a terminator is inserted**, before a word that closes, and not after another
terminator. -/
structure Terminated (tokens others : List Token) (place : Nat) (word : Token) : Prop where
  there : tokens[place]? = some word
  closes : word.kind.closes = true
  fresh : ∀ j before, j + 1 = place → tokens[j]? = some before → before.kind ≠ .semicolon
  inserted : others.map Token.said = (tokens.map Token.said).insertIdx place (.semicolon, ";")

/-- **A terminator that is inserted** into a stream without errors, where only the end says that it is the
end. -/
structure Insertion where
  stream : TokenStream
  changed : TokenStream
  tokens : List Token
  others : List Token
  place : Nat
  word : Token
  read : stream.tokens = .ok tokens
  read_changed : changed.tokens = .ok others
  proper : ∀ token, .ok token ∈ stream.items → token.kind ≠ .endOfInput
  terminated : Terminated tokens others place word

theorem TokenStream.entries_of_tokens {s : TokenStream} {tokens : List Token} (h : s.tokens = .ok tokens) :
    s.entries = tokens.map .ok := by
  obtain ⟨some, items, rfl⟩ := items_of_tokens h
  rw [entries, items, List.map_append]
  rfl

/-- The token at which a cursor of a stream without errors stands. -/
theorem Cursor.At.token {s : TokenStream} {tokens : List Token} {c : Cursor} {j : Nat} (h : c.At s j)
    (read : s.tokens = .ok tokens) : tokens[j]? = some c.current := by
  have found := h.current
  rw [TokenStream.entries_of_tokens read, List.getElem?_map] at found
  obtain ⟨token, there, same⟩ := Option.map_eq_some_iff.1 found
  rw [there, Except.ok.inj same]

/-- In a stream without errors a cursor moves on by one place. -/
theorem Cursor.At.moves {s : TokenStream} {tokens : List Token} {c : Cursor} {j : Nat} (h : c.At s j)
    (read : s.tokens = .ok tokens) (held : c.kind ≠ .endOfInput) :
    ∃ after, c.advance = (.ok c.current, after) ∧ after.At s (j + 1) := by
  rcases h.advance held with moves | ⟨e, -, -, failed, -⟩
  · exact moves
  · cases failed.symm.trans read

namespace Parser

/-! ## Limits of statements -/

theorem operator?_of_limits {kind : Kind} (limits : kind.limits = true) (level : Level) :
    level.operator? kind = none := by
  cases kind <;> first | (cases level <;> rfl) | cases limits

theorem prefixOperator?_of_limits {kind : Kind} (limits : kind.limits = true) :
    prefixOperator? kind = none := by
  cases kind <;> first | rfl | cases limits

theorem startsLiteral_of_limits {kind : Kind} (limits : kind.limits = true) :
    startsLiteral kind = false := by
  cases kind <;> first | rfl | cases limits

end Parser

namespace Insertion

variable {I : Insertion} {c d : Cursor} {taken passed : Bool} {j : Nat}

/-! ## Tokens -/

theorem said_before (before : j < I.place) :
    I.others[j]?.map Token.said = I.tokens[j]?.map Token.said := by
  rw [← List.getElem?_map, I.terminated.inserted, List.getElem?_insertIdx_of_lt before, List.getElem?_map]

theorem said_there : I.others[I.place]?.map Token.said = some (.semicolon, ";") := by
  have bound := (List.getElem?_eq_some_iff.1 I.terminated.there).1
  rw [← List.getElem?_map, I.terminated.inserted, List.getElem?_insertIdx_self, if_pos]
  rw [List.length_map]
  exact bound.le

theorem said_after (after : I.place ≤ j) :
    I.others[j + 1]?.map Token.said = I.tokens[j]?.map Token.said := by
  rw [← List.getElem?_map, I.terminated.inserted, List.getElem?_insertIdx_of_gt (Nat.lt_succ_of_le after),
    List.getElem?_map]
  rfl

/-! ## Cursors -/

/-- **Cursors at tokens that say the same**, while the word is ahead and when it has been passed. -/
inductive Aligned (I : Insertion) : Bool → Cursor → Cursor → Prop where
  | before {c d : Cursor} {j : Nat} : j < I.place → c.At I.stream j → d.At I.changed j → I.Aligned false c d
  | after {c d : Cursor} {j : Nat} : I.place < j → c.At I.stream j → d.At I.changed (j + 1) →
    I.Aligned true c d

/-- **Cursors that face each other**: they are aligned, or the one is at the word and the other one at the
terminator, which may still be taken, or behind it. -/
inductive Faces (I : Insertion) : Bool → Bool → Cursor → Cursor → Prop where
  | aligned {taken passed : Bool} {c d : Cursor} : I.Aligned passed c d → I.Faces taken passed c d
  | ahead {c d : Cursor} : c.At I.stream I.place → d.At I.changed I.place → I.Faces false false c d
  | behind {c d : Cursor} : c.At I.stream I.place → d.At I.changed (I.place + 1) → I.Faces true false c d

theorem Aligned.said (h : I.Aligned passed c d) : c.current.said = d.current.said := by
  cases h with
  | before early left right =>
    have same := said_before early
    rw [left.token I.read, right.token I.read_changed] at same
    exact (Option.some.inj same).symm
  | after late left right =>
    have same := said_after late.le
    rw [left.token I.read, right.token I.read_changed] at same
    exact (Option.some.inj same).symm

theorem Aligned.kind (h : I.Aligned passed c d) : c.kind = d.kind := congrArg Prod.fst h.said

/-- The cursor at the word. -/
theorem current_of_place (h : c.At I.stream I.place) : c.current = I.word :=
  Option.some.inj ((h.token I.read).symm.trans I.terminated.there)

theorem closes_of_place (h : c.At I.stream I.place) : c.kind.closes = true := by
  rw [Cursor.kind, current_of_place h]
  exact I.terminated.closes

/-- The other cursor at the terminator. -/
theorem kind_ahead (h : d.At I.changed I.place) : d.kind = .semicolon := by
  have said := I.said_there
  rw [h.token I.read_changed] at said
  exact congrArg Prod.fst (Option.some.inj said)

/-- The other cursor behind the terminator is at the word. -/
theorem kind_behind (h : d.At I.changed (I.place + 1)) : d.kind = I.word.kind := by
  have said := I.said_after I.place.le_refl
  rw [h.token I.read_changed, I.terminated.there] at said
  exact congrArg Prod.fst (Option.some.inj said)

theorem limits_of_closes {kind : Kind} (h : kind.closes = true) : kind.limits = true := by
  rw [Kind.limits, h, Bool.or_true]

/-- **What is not asked of the limits of statements** has one answer for both cursors. -/
theorem Faces.look (h : I.Faces taken passed c d) {α : Type} (f : Kind → α) (blank : α)
    (limits : ∀ kind, kind.limits = true → f kind = blank) : f c.kind = f d.kind := by
  cases h with
  | aligned aligned => rw [aligned.kind]
  | ahead left right =>
    rw [limits _ (limits_of_closes (closes_of_place left)), kind_ahead right, limits .semicolon rfl]
  | behind left right => rw [kind_behind right, Cursor.kind, current_of_place left]

theorem Faces.kind_iff (h : I.Faces taken passed c d) {kind : Kind} (free : kind.limits = false) :
    c.kind = kind ↔ d.kind = kind := by
  have same := h.look (fun k => decide (k = kind)) false fun k limits =>
    decide_eq_false fun same => by rw [same, free] at limits; cases limits
  exact decide_eq_decide.1 same

/-- At a token that limits no statement the cursors are aligned. -/
theorem Faces.to_aligned (h : I.Faces taken passed c d) (free : c.kind.limits = false) :
    I.Aligned passed c d := by
  cases h with
  | aligned aligned => exact aligned
  | ahead left | behind left =>
    rw [limits_of_closes (closes_of_place left)] at free
    cases free

/-- Cursors that are not aligned face each other at the word, where the terminator has been taken or not. -/
theorem Faces.aligned_or (h : I.Faces taken passed c d) : I.Aligned passed c d ∨
    passed = false ∧ c.At I.stream I.place ∧
      (d.At I.changed I.place ∧ taken = false ∨ d.At I.changed (I.place + 1) ∧ taken = true) := by
  cases h with
  | aligned aligned => exact .inl aligned
  | ahead left right => exact .inr ⟨rfl, left, .inl ⟨right, rfl⟩⟩
  | behind left right => exact .inr ⟨rfl, left, .inr ⟨right, rfl⟩⟩

/-- **Aligned cursors move on together.**  Behind a terminator they are aligned again, since the word does
not come next there. -/
theorem Aligned.moves (h : I.Aligned passed c d) (held : c.kind ≠ .endOfInput) :
    ∃ after after', c.advance = (.ok c.current, after) ∧ d.advance = (.ok d.current, after') ∧
      I.Faces false passed after after' ∧ (c.kind = .semicolon → I.Aligned passed after after') := by
  have held' : d.kind ≠ .endOfInput := h.kind ▸ held
  cases h with
  | before early left right =>
    obtain ⟨after, first, next⟩ := left.moves I.read held
    obtain ⟨after', second, next'⟩ := right.moves I.read_changed held'
    refine ⟨after, after', first, second, ?_⟩
    rcases Nat.lt_or_eq_of_le (Nat.succ_le_of_lt early) with earlier | now
    · have aligned : I.Aligned false after after' := .before earlier next next'
      exact ⟨.aligned aligned, fun _ => aligned⟩
    · exact ⟨.ahead (now ▸ next) (now ▸ next'),
        fun terminator => (I.terminated.fresh _ _ now (left.token I.read) terminator).elim⟩
  | after late left right =>
    obtain ⟨after, first, next⟩ := left.moves I.read held
    obtain ⟨after', second, next'⟩ := right.moves I.read_changed held'
    have aligned : I.Aligned true after after' := .after (Nat.lt_succ_of_lt late) next next'
    exact ⟨after, after', first, second, .aligned aligned, fun _ => aligned⟩

/-- A word that has been passed is not the end. -/
theorem Aligned.not_end (h : I.Aligned true c d) : I.word.kind ≠ .endOfInput := by
  cases h with
  | after late left =>
    have bound := (List.getElem?_eq_some_iff.1 left.current).1
    rw [TokenStream.entries, List.length_append, List.length_singleton] at bound
    have inside : I.place < I.stream.items.length := by omega
    have found := I.terminated.there
    have entry : I.stream.entries[I.place]? = some (.ok I.word) := by
      rw [TokenStream.entries_of_tokens I.read, List.getElem?_map, found]
      rfl
    rw [TokenStream.entries_of_lt inside] at entry
    exact I.proper _ (List.mem_of_getElem? entry)

theorem Faces.not_end (h : I.Faces taken true c d) : I.word.kind ≠ .endOfInput := by
  cases h with
  | aligned aligned => exact aligned.not_end

/-- Before the word there is no end. -/
theorem Aligned.not_atEnd (h : I.Aligned false c d) : c.kind ≠ .endOfInput := by
  cases h with
  | before early left =>
    have bound := (List.getElem?_eq_some_iff.1 I.terminated.there).1
    have entries := TokenStream.entries_of_tokens I.read
    have length := congrArg List.length entries
    rw [TokenStream.entries, List.length_append, List.length_map, List.length_singleton] at length
    have found := left.current
    rw [TokenStream.entries_of_lt (by omega)] at found
    exact I.proper _ (List.mem_of_getElem? found)

/-! ## Readings -/

/-- The place of a token, which is not the word, in the changed stream. -/
def shifted (I : Insertion) (j : Nat) : Nat := if j < I.place then j else j + 1

/-- **Readings that carry over**: they are good together, or fail for one cause at one token, or the first
one fails at the word, where a statement would have had to go on. -/
inductive Carries (I : Insertion) {α β : Type} (good : α → β → Prop) :
    Except SyntaxError α → Except SyntaxError β → Prop where
  | found {a : α} {b : β} : good a b → I.Carries good (.ok a) (.ok b)
  | parse {e e' : ParseError} {j : Nat} : e.cause = e'.cause → j ≠ I.place → e.At I.stream j →
    e'.At I.changed (I.shifted j) → I.Carries good (.error (.parse e)) (.error (.parse e'))
  | stuck {e : ParseError} {r : Except SyntaxError β} : e.At I.stream I.place →
    I.Carries good (.error (.parse e)) r

section

variable {α β γ δ : Type} {good : α → β → Prop} {fine : γ → δ → Prop}

theorem Carries.bind {r : Except SyntaxError α} {r' : Except SyntaxError β} {f : α → Except SyntaxError γ}
    {f' : β → Except SyntaxError δ} (h : I.Carries good r r')
    (next : ∀ a b, good a b → I.Carries fine (f a) (f' b)) : I.Carries fine (r >>= f) (r' >>= f') := by
  cases h with
  | found both => exact next _ _ both
  | parse cause apart first second => exact .parse cause apart first second
  | stuck first => exact .stuck first

theorem Carries.dite {p q : Prop} [Decidable p] [Decidable q] {yes : p → Except SyntaxError α}
    {no : ¬p → Except SyntaxError α} {yes' : q → Except SyntaxError β} {no' : ¬q → Except SyntaxError β}
    (both : p ↔ q) (first : ∀ h h', I.Carries good (yes h) (yes' h'))
    (second : ∀ h h', I.Carries good (no h) (no' h')) :
    I.Carries good (if h : p then yes h else no h) (if h : q then yes' h else no' h) := by
  by_cases h : p
  · rw [dif_pos h, dif_pos (both.1 h)]
    exact first h _
  · rw [dif_neg h, dif_neg fun h' => h (both.2 h')]
    exact second h _

theorem Carries.ite {p q : Prop} [Decidable p] [Decidable q] {yes no : Except SyntaxError α}
    {yes' no' : Except SyntaxError β} (both : p ↔ q) (first : I.Carries good yes yes')
    (second : I.Carries good no no') : I.Carries good (if p then yes else no) (if q then yes' else no') :=
  .dite both (fun _ _ => first) fun _ _ => second

/-- Aligned cursors stand at one token, which is not the word. -/
theorem Aligned.at_shifted (h : I.Aligned passed c d) :
    ∃ j, j ≠ I.place ∧ c.At I.stream j ∧ d.At I.changed (I.shifted j) := by
  cases h with
  | @before _ _ j early left right =>
    refine ⟨j, early.ne, left, ?_⟩
    rwa [shifted, if_pos early]
  | @after _ _ j late left right =>
    refine ⟨j, late.ne', left, ?_⟩
    rwa [shifted, if_neg late.le.not_gt]

theorem at_unexpected {s : TokenStream} (h : c.At s j) (expected : String) : (c.unexpected expected).At s j :=
  ⟨c.current, h.current, rfl, rfl⟩

end

end Insertion

namespace Parser

variable {I : Insertion} {c d : Cursor} {taken passed now : Bool} {n m k l : Nat}

/-- **Words that carry over**: they say the same, the first one comes before the word of the insertion unless
that has been passed, and the cursors after them face each other. -/
def Words (I : Insertion) (passed : Bool) (r : Reading Token n) (r' : Reading Token m) : Prop :=
  I.Carries (fun read read' => read.value.said = read'.value.said ∧
    (passed = false → read.value ∈ I.tokens.take I.place) ∧ I.Faces false passed read.next read'.next) r r'

/-- **Ends of statements that carry over**: no terminator is left to take, and whether one has been taken or a
block is closed is the same for both. -/
def Stops (I : Insertion) (passed : Bool) (r : Reading Bool n) (r' : Reading Bool m) : Prop :=
  I.Carries (fun read read' => I.Faces true passed read.next read'.next ∧
    (read.value || closesBlock read.next.kind) = (read'.value || closesBlock read'.next.kind)) r r'

/-- **What carries over without passing the word.** -/
def Keeps {α : Type} (I : Insertion) (passed : Bool) (same : α → α → Prop) (r : Reading α n)
    (r' : Reading α m) : Prop :=
  I.Carries (fun read read' => same read.value read'.value ∧
    ∃ taken, I.Faces taken passed read.next read'.next) r r'

/-- **What carries over and may pass the word.**  How what is read compares may depend on whether that has
happened, and on whether the terminator has been taken. -/
def Reach {α : Type} (I : Insertion) (same : Bool → Bool → α → α → Prop) (r : Reading α n)
    (r' : Reading α m) : Prop :=
  I.Carries (fun read read' => ∃ taken now, same taken now read.value read'.value ∧
    I.Faces taken now read.next read'.next) r r'

section

variable {α β γ : Type} {same : α → α → Prop} {related : Bool → Bool → α → α → Prop} {fine : β → γ → Prop}

theorem Words.bind {r : Reading Token n} {r' : Reading Token m} {f : Read Token n → Except SyntaxError β}
    {f' : Read Token m → Except SyntaxError γ} (h : Words I passed r r')
    (next : ∀ v c₁ fewer w d₁ fewer', v.said = w.said → (passed = false → v ∈ I.tokens.take I.place) →
      I.Faces false passed c₁ d₁ → I.Carries fine (f ⟨v, c₁, fewer⟩) (f' ⟨w, d₁, fewer'⟩)) :
    I.Carries fine (r >>= f) (r' >>= f') :=
  Insertion.Carries.bind h fun a b both =>
    next a.value a.next a.fewer b.value b.next b.fewer both.1 both.2.1 both.2.2

theorem Stops.bind {r : Reading Bool n} {r' : Reading Bool m} {f : Read Bool n → Except SyntaxError β}
    {f' : Read Bool m → Except SyntaxError γ} (h : Stops I passed r r')
    (next : ∀ v c₁ fewer w d₁ fewer',
      (v || closesBlock c₁.kind) = (w || closesBlock d₁.kind) → I.Faces true passed c₁ d₁ →
      I.Carries fine (f ⟨v, c₁, fewer⟩) (f' ⟨w, d₁, fewer'⟩)) : I.Carries fine (r >>= f) (r' >>= f') :=
  Insertion.Carries.bind h fun a b both =>
    next a.value a.next a.fewer b.value b.next b.fewer both.2 both.1

theorem Keeps.bind {r : Reading α n} {r' : Reading α m} {f : Read α n → Except SyntaxError β}
    {f' : Read α m → Except SyntaxError γ} (h : Keeps I passed same r r')
    (next : ∀ v c₁ fewer w d₁ fewer' taken, same v w → I.Faces taken passed c₁ d₁ →
      I.Carries fine (f ⟨v, c₁, fewer⟩) (f' ⟨w, d₁, fewer'⟩)) : I.Carries fine (r >>= f) (r' >>= f') := by
  refine Insertion.Carries.bind h fun a b both => ?_
  obtain ⟨same, taken, there⟩ := both
  exact next a.value a.next a.fewer b.value b.next b.fewer taken same there

theorem Reach.bind {r : Reading α n} {r' : Reading α m} {f : Read α n → Except SyntaxError β}
    {f' : Read α m → Except SyntaxError γ} (h : Reach I related r r')
    (next : ∀ v c₁ fewer w d₁ fewer' taken now, related taken now v w → I.Faces taken now c₁ d₁ →
      I.Carries fine (f ⟨v, c₁, fewer⟩) (f' ⟨w, d₁, fewer'⟩)) : I.Carries fine (r >>= f) (r' >>= f') := by
  refine Insertion.Carries.bind h fun a b both => ?_
  obtain ⟨taken, now, same, there⟩ := both
  exact next a.value a.next a.fewer b.value b.next b.fewer taken now same there

theorem Keeps.done {v w : α} {fewer : c.remaining < n} {fewer' : d.remaining < m} (found : same v w)
    (h : I.Faces taken passed c d) :
    Keeps I passed same (.ok ⟨v, c, fewer⟩ : Reading α n) (.ok ⟨w, d, fewer'⟩ : Reading α m) :=
  .found ⟨found, taken, h⟩

theorem Reach.done {v w : α} {fewer : c.remaining < n} {fewer' : d.remaining < m}
    (found : related taken now v w) (h : I.Faces taken now c d) :
    Reach I related (.ok ⟨v, c, fewer⟩ : Reading α n) (.ok ⟨w, d, fewer'⟩ : Reading α m) :=
  .found ⟨taken, now, found, h⟩

/-! ## Words -/

theorem carries_refuse {good : Read α n → Read β m → Prop} (h : I.Faces taken passed c d)
    (expected : String) :
    I.Carries good (refuse c expected : Reading α n) (refuse d expected : Reading β m) := by
  cases h with
  | aligned aligned =>
    obtain ⟨j, apart, left, right⟩ := aligned.at_shifted
    exact .parse (congrArg (ParseError.Cause.unexpectedToken expected) aligned.kind) apart
      (Insertion.at_unexpected left expected) (Insertion.at_unexpected right expected)
  | ahead left | behind left => exact .stuck (Insertion.at_unexpected left expected)

end

/-- A token is consumed in a stream without errors. -/
theorem shift_moves {s : TokenStream} {tokens : List Token} {j : Nat} (h : c.At s j)
    (read : s.tokens = .ok tokens) (held : c.kind ≠ .endOfInput) :
    ∃ after fewer, shift c held = .ok ⟨c.current, after, fewer⟩ ∧ after.At s (j + 1) ∧
      after.previous = c.current.span := by
  obtain ⟨after, step, next⟩ := h.moves read held
  obtain ⟨fewer, made⟩ := shift_of_ok step held
  exact ⟨after, fewer, made, next, (Cursor.Moves.mk held step).previous⟩

theorem carries_move (h : I.Aligned passed c d) (held : c.kind ≠ .endOfInput)
    (held' : d.kind ≠ .endOfInput) : Words I passed (shift c held) (shift d held') := by
  obtain ⟨after, after', first, second, next, -⟩ := h.moves held
  obtain ⟨_, left⟩ := shift_of_ok first held
  obtain ⟨_, right⟩ := shift_of_ok second held'
  rw [left, right]
  refine .found ⟨h.said, ?_, next⟩
  rintro rfl
  cases h with
  | before early left => exact List.mem_of_getElem? ((List.getElem?_take_of_lt early).trans (left.token I.read))

theorem carries_shift (h : I.Faces taken passed c d) (free : c.kind.limits = false)
    (held : c.kind ≠ .endOfInput) (held' : d.kind ≠ .endOfInput) :
    Words I passed (shift c held) (shift d held') :=
  carries_move (h.to_aligned free) held held'

theorem carries_require (h : I.Faces taken passed c d) (kind : Kind) (word : kind ≠ .endOfInput)
    (free : kind.limits = false := by rfl) : Words I passed (require c kind word) (require d kind word) := by
  unfold require
  exact .dite (h.kind_iff free) (fun here _ => carries_shift h (here ▸ free) _ _)
    fun _ _ => carries_refuse h kind.name

theorem carries_skip (h : I.Faces taken passed c d) (kind : Kind) (word : kind ≠ .endOfInput)
    (free : kind.limits = false := by rfl) : Keeps I passed Eq (skip c kind word) (skip d kind word) := by
  unfold skip
  refine .dite (h.kind_iff free) (fun here _ => ?_) fun _ _ => Keeps.done rfl h
  exact Words.bind (carries_shift h (here ▸ free) _ _) fun _ _ _ _ _ _ _ _ next => Keeps.done rfl next

/-- What is read unless the end has been reached. -/
theorem carries_unlessEnded {α β : Type} {good : Read α n → Read β m → Prop} {r : Reading α n}
    {r' : Reading β m} (h : I.Faces taken passed c d) {expected : String} (rest : I.Carries good r r') :
    I.Carries good (if c.atEnd then refuse c expected else r) (if d.atEnd then refuse d expected else r') := by
  by_cases ended : c.atEnd
  · rw [if_pos ended]
    have here : c.kind = .endOfInput := of_decide_eq_true ended
    cases h with
    | aligned aligned =>
      have also : d.atEnd = true := decide_eq_true (aligned.kind ▸ here)
      rw [if_pos also]
      exact carries_refuse (.aligned aligned : I.Faces taken passed c d) expected
    | ahead left | behind left => exact .stuck (Insertion.at_unexpected left expected)
  · have also : ¬d.atEnd = true := by
      intro ended'
      have there : d.kind = .endOfInput := of_decide_eq_true ended'
      cases h with
      | aligned aligned => exact ended (decide_eq_true (aligned.kind.trans there))
      | ahead _ right => cases (Insertion.kind_ahead right).symm.trans there
      | behind left right =>
        refine ended (decide_eq_true ?_)
        rw [Cursor.kind, Insertion.current_of_place left, ← Insertion.kind_behind right, there]
    rw [if_neg ended, if_neg also]
    exact rest

/-- A constant is what its token says. -/
theorem carries_literal {same : Bool → Bool → Node → Node → Prop} (h : I.Aligned passed c d)
    (held : c.kind ≠ .endOfInput) (held' : d.kind ≠ .endOfInput)
    (found : ∀ taken a b, SameTree a b → same taken passed a b) :
    Reach I same
      (do let ⟨token, c₁, h₁⟩ ← shift c held
          let value ← (literal token).mapError .parse
          return ⟨.literal token.span value, c₁, h₁⟩ : Reading Node c.remaining)
      (do let ⟨token, c₁, h₁⟩ ← shift d held'
          let value ← (literal token).mapError .parse
          return ⟨.literal token.span value, c₁, h₁⟩ : Reading Node d.remaining) := by
  obtain ⟨j, apart, left, right⟩ := h.at_shifted
  obtain ⟨after, after', first, second, next, -⟩ := h.moves held
  obtain ⟨_, made⟩ := shift_of_ok first held
  obtain ⟨_, made'⟩ := shift_of_ok second held'
  obtain ⟨kinds, texts⟩ := Prod.mk.inj h.said
  rw [made, made']
  show I.Carries _ (do let value ← (literal c.current).mapError .parse
                       return _) (do let value ← (literal d.current).mapError .parse
                                     return _)
  rw [literal_eq c.current, literal_eq d.current, kinds, texts]
  cases literal ⟨d.current.kind, d.current.text, .none, .first⟩ with
  | ok value => exact Reach.done (found _ _ _ rfl) next
  | error e =>
    exact .parse rfl apart ⟨c.current, left.current, rfl, rfl⟩ ⟨d.current, right.current, rfl, rfl⟩

/-- **A terminator is skipped** in front of the word if it has not been taken before. -/
theorem carries_terminator (h : I.Faces taken passed c d) (word : Kind.semicolon ≠ .endOfInput) :
    Stops I passed (skip c .semicolon word) (skip d .semicolon word) := by
  have closed {kind : Kind} (closes : kind.closes = true) : closesBlock kind = true := by
    cases kind <;> first | rfl | cases closes
  unfold skip
  cases h with
  | aligned aligned =>
    refine .dite (by rw [aligned.kind]) (fun here here' => ?_)
      fun _ _ => .found ⟨.aligned aligned, by rw [aligned.kind]⟩
    obtain ⟨after, after', first, second, -, again⟩ := aligned.moves (here ▸ word)
    obtain ⟨_, left⟩ := shift_of_ok first (here ▸ word)
    obtain ⟨_, right⟩ := shift_of_ok second (here' ▸ word)
    rw [left, right]
    exact .found ⟨.aligned (again here), rfl⟩
  | ahead left right =>
    have other : c.kind ≠ .semicolon := by
      intro same
      have closes := Insertion.closes_of_place left
      rw [same] at closes
      cases closes
    have here := Insertion.kind_ahead right
    obtain ⟨after, fewer, step, next, -⟩ := shift_moves right I.read_changed (here ▸ word)
    rw [dif_neg other, dif_pos here, step]
    refine .found ⟨.behind left next, ?_⟩
    rw [closed (Insertion.closes_of_place left)]
    rfl
  | behind left right =>
    have closes := Insertion.closes_of_place left
    have same : c.kind = d.kind := by
      rw [Insertion.kind_behind right, Cursor.kind, Insertion.current_of_place left]
    have other : c.kind ≠ .semicolon := by
      intro same
      rw [same] at closes
      cases closes
    rw [dif_neg other, dif_neg (same ▸ other)]
    exact .found ⟨.behind left right, by rw [same]⟩

end Parser

end HostScript
