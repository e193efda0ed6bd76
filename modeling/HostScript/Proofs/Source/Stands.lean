import HostScript.Proofs.Source.Spots
import HostScript.Token.Cursor

/-!
# Proofs/Source/Stands — tokens stand at spots

A scanner is always at a spot of its source, so every token and error that it reads stands at one: the
position is that of the spot and the span starts there (`Scanner.At.next?`).  A cursor holds tokens of
such a stream, and goes on to do so when it is advanced (`Cursor.Stands.advance`).

Spans hold no more than thirty-two bits, so all of this is about sources that are not longer.
-/

namespace HostScript

open Text (byteLength)

variable {source : List Char}

/-! ## Spans and positions -/

/-- A span that starts at a spot. -/
def Span.StartsIn (source : List Char) (span : Span) : Prop :=
  ∃ spot : Spot source, span.start = spot.offset

/-- **A position and a span that stand at one spot.** -/
def Position.Stands (source : List Char) (p : Position) (span : Span) : Prop :=
  ∃ spot : Spot source, p = spot.position ∧ span.start = spot.offset

theorem Position.Stands.startsIn {p : Position} {span : Span} (h : p.Stands source span) :
    span.StartsIn source := h.imp fun _ there => there.2

theorem Span.startsIn_none : Span.none.StartsIn source := ⟨.start source, rfl⟩

/-- The smallest span around two starts where one of them does. -/
theorem Span.StartsIn.merge {s t : Span} (first : s.StartsIn source) (second : t.StartsIn source) :
    (s.merge t).StartsIn source := by
  rcases Nat.le_total s.start t.start with before | after
  · exact first.imp fun _ there => (Nat.min_eq_left before).trans there
  · exact second.imp fun _ there => (Nat.min_eq_right after).trans there

/-- What the index finds for the start of a span is where it stands. -/
theorem Span.StartsIn.stands {span : Span} (h : span.StartsIn source) :
    ((LineIndex.ofSource source).position span.start).Stands source span := by
  obtain ⟨spot, there⟩ := h
  exact ⟨spot, there ▸ LineIndex.position_offset spot, there⟩

/-! ## Scanners -/

/-- A scanner at a spot. -/
def Scanner.At (source : List Char) (s : Scanner) : Prop :=
  ∃ spot : Spot source, s = ⟨spot.rest, spot.offset, spot.position⟩

namespace Scanner

theorem at_ofSource : (ofSource source).At source := ⟨.start source, rfl⟩

namespace At

variable {s : Scanner}

theorem bump (h : s.At source) : s.bump.At source := by
  obtain ⟨⟨front, rest, split⟩, rfl⟩ := h
  cases rest with
  | nil => exact ⟨_, rfl⟩
  | cons c rest =>
    have split' : source = (front ++ [c]) ++ rest := by rw [split, List.append_assoc, List.singleton_append]
    refine ⟨⟨front ++ [c], rest, split'⟩, ?_⟩
    have offset : byteLength (front ++ [c]) = byteLength front + c.utf8Size := by
      rw [Text.byteLength_append, Text.byteLength_cons, Text.byteLength_nil, Nat.add_zero]
    have position : Position.first.past (front ++ [c]) = (Position.first.past front).after c :=
      Position.past_append _ _ _
    exact congrArg₂ (Scanner.mk rest) offset.symm position.symm

theorem past (h : s.At source) (n : Nat) : (past n s).At source := by
  induction n generalizing s with
  | zero => exact h
  | succ n ih => exact ih h.bump

theorem pastTrivia (h : s.At source) : s.pastTrivia.At source := h.past _

/-- A span from the spot of a scanner on stands there. -/
theorem stands (h : s.At source) (size : byteLength source ≤ Span.limit) (stop : Nat) :
    s.position.Stands source (.ofRange s.offset stop) := by
  obtain ⟨spot, rfl⟩ := h
  exact ⟨spot, rfl, Nat.min_eq_left (Nat.le_trans spot.offset_le size)⟩

end At

end Scanner

/-! ## Streams -/

/-- A token that stands at a spot. -/
def Token.Stands (source : List Char) (t : Token) : Prop := t.position.Stands source t.span

/-- An error that stands at a spot. -/
def LexError.Stands (source : List Char) (e : LexError) : Prop := e.position.Stands source e.span

/-- A token or error that stands at a spot. -/
def ItemStands (source : List Char) : Except LexError Token → Prop
  | .ok t => t.Stands source
  | .error e => e.Stands source

/-- **A scanner reads a token or error that stands at a spot**, and is at a spot after it. -/
theorem Scanner.At.next? {s after : Scanner} {item : Except LexError Token} (h : s.At source)
    (size : byteLength source ≤ Span.limit) (read : s.next? = some (item, after)) :
    ItemStands source item ∧ after.At source := by
  have start := h.pastTrivia
  unfold Scanner.next? at read
  dsimp only at read
  split at read
  · cases read
  next c rest _ =>
    obtain ⟨same, rfl⟩ := Prod.mk.inj (Option.some.inj read)
    refine ⟨?_, start.bump.past _⟩
    rw [← same]
    split
    · exact start.stands size _
    · exact start.stands size _

/-- A stream whose tokens, errors and end stand at spots. -/
structure TokenStream.Stands (source : List Char) (stream : TokenStream) : Prop where
  items : ∀ item ∈ stream.items, ItemStands source item
  final : stream.final.token.Stands source

theorem TokenStream.stands_ofScanner {s : Scanner} (h : s.At source)
    (size : byteLength source ≤ Span.limit) : (ofScanner s).Stands source := by
  induction s using ofScanner.induct with
  | case1 s ended =>
    rw [ofScanner_end ended]
    exact ⟨nofun, h.pastTrivia.stands size _⟩
  | case2 s item after read ih =>
    obtain ⟨stands, at_after⟩ := h.next? size read
    obtain ⟨items, final⟩ := ih at_after
    rw [ofScanner_next read]
    exact ⟨List.forall_mem_cons.2 ⟨stands, items⟩, final⟩

/-! ## Cursors -/

/-- **A cursor over tokens that stand at spots.** -/
structure Cursor.Stands (source : List Char) (c : Cursor) : Prop where
  current : c.current.Stands source
  upcoming : ∀ item ∈ c.upcoming, ItemStands source item
  final : c.final.token.Stands source
  previous : c.previous.StartsIn source

namespace Cursor

variable {c : Cursor}

theorem stands_ofSource {text : String} (size : byteLength text.toList ≤ Span.limit) :
    match ofSource text with
    | .ok c => c.Stands text.toList
    | .error e => e.Stands text.toList := by
  have stream := TokenStream.stands_ofScanner Scanner.at_ofSource size
  unfold ofSource TokenStream.ofSource
  obtain ⟨items, final⟩ := stream
  dsimp only
  cases read : (TokenStream.ofScanner (.ofSource text.toList)).items with
  | nil => exact ⟨final, nofun, final, Span.startsIn_none⟩
  | cons item rest =>
    rw [read] at items
    obtain ⟨first, others⟩ := List.forall_mem_cons.1 items
    cases item with
    | ok token => exact ⟨first, others, final, Span.startsIn_none⟩
    | error e => exact first

/-- A cursor is advanced to the next token, or to an error that stands at a spot. -/
theorem Stands.advance (h : c.Stands source) :
    match c.advance with
    | (.ok t, after) => t.Stands source ∧ after.Stands source
    | (.error e, _) => e.Stands source := by
  unfold Cursor.advance
  dsimp only
  cases upcoming : c.upcoming with
  | nil => exact ⟨h.current, h.final, nofun, h.final, h.current.startsIn⟩
  | cons item rest =>
    have items := h.upcoming
    rw [upcoming] at items
    obtain ⟨next, others⟩ := List.forall_mem_cons.1 items
    cases item with
    | ok token => exact ⟨h.current, next, others, h.final, h.current.startsIn⟩
    | error e => exact next

theorem Stands.spanFrom (h : c.Stands source) {start : Span} (starts : start.StartsIn source) :
    (c.spanFrom start).StartsIn source := starts.merge h.previous

end Cursor

end HostScript
