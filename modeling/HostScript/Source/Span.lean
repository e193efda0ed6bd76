/-!
# Source/Span — where a piece of text stands

A span is a range of byte offsets and a position is a line and a column, both counted from one.
Offsets are kept to thirty-two bits; a larger one is taken for the largest.  `Span.merge` is the
smallest span around two (`Span.start_merge_le`, `Span.le_stop_merge`).
-/

namespace HostScript

/-- A range of bytes of a source text, the last one excluded. -/
structure Span where
  start : Nat
  stop : Nat
  deriving DecidableEq, Repr, Inhabited

namespace Span

/-- The largest offset a span holds. -/
def limit : Nat := 4294967295

/-- The span of no text: where nothing has been read yet. -/
def none : Span := ⟨0, 0⟩

/-- The span of a range of offsets, each taken for the largest when it is beyond it. -/
def ofRange (start stop : Nat) : Span := ⟨min start limit, min stop limit⟩

/-- The number of bytes. -/
def length (s : Span) : Nat := s.stop - s.start

/-- Whether the span starts where it stops. -/
def isEmpty (s : Span) : Bool := s.start == s.stop

/-- The smallest span around two. -/
def merge (s t : Span) : Span := ⟨min s.start t.start, max s.stop t.stop⟩

/-- The two offsets with two points between them. -/
def text (s : Span) : String := toString s.start ++ ".." ++ toString s.stop

theorem start_merge_le (s t : Span) : (s.merge t).start ≤ s.start ∧ (s.merge t).start ≤ t.start :=
  ⟨Nat.min_le_left _ _, Nat.min_le_right _ _⟩

theorem le_stop_merge (s t : Span) : s.stop ≤ (s.merge t).stop ∧ t.stop ≤ (s.merge t).stop :=
  ⟨Nat.le_max_left _ _, Nat.le_max_right _ _⟩

end Span

/-- A line and a column of a source text, both counted from one; a column counts characters. -/
structure Position where
  line : Nat
  column : Nat
  deriving DecidableEq, Repr, Inhabited

namespace Position

/-- The position of the first character. -/
def first : Position := ⟨1, 1⟩

/-- The position after a character: only a line feed ends a line. -/
def after (p : Position) (c : Char) : Position :=
  if c = '\n' then ⟨p.line + 1, 1⟩ else ⟨p.line, p.column + 1⟩

/-- The line, a colon and the column. -/
def text (p : Position) : String := toString p.line ++ ":" ++ toString p.column

end Position

end HostScript
