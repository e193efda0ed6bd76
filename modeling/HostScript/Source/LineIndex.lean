import HostScript.Source.Span
import HostScript.Text.Bytes

/-!
# Source/LineIndex — positions of byte offsets

The lines of a source, kept so that the position of an offset is found without reading the text of
the lines before it.
-/

namespace HostScript

/-- The lines of a source, in order: the byte offset at which each starts, and the source from
there on. -/
structure LineIndex where
  lines : List (Nat × List Char)
  deriving Repr

namespace LineIndex

/-- The lines after the first one of a text that starts at the given offset. -/
def linesAfter : Nat → List Char → List (Nat × List Char)
  | _, [] => []
  | offset, c :: rest =>
    let next := offset + c.utf8Size
    if c = '\n' then (next, rest) :: linesAfter next rest else linesAfter next rest

/-- The index of a source: its first line starts at zero. -/
def ofSource (source : List Char) : LineIndex := ⟨(0, source) :: linesAfter 0 source⟩

/-- The column after a number of bytes of a text that starts in a given column.  The column of the end
is that of every offset beyond it, and an offset inside a character has column one. -/
def columnAfter (column : Nat) : Nat → List Char → Nat
  | 0, _ => column
  | _ + 1, [] => column
  | bytes + 1, c :: rest =>
    if c.utf8Size ≤ bytes + 1 then columnAfter (column + 1) (bytes + 1 - c.utf8Size) rest else 1

/-- The position of an offset, from a line that starts at or before it and the lines after that: it
is in the last line that starts at or before it. -/
def locate (offset line : Nat) (here : Nat × List Char) : List (Nat × List Char) → Position
  | [] => ⟨line, columnAfter 1 (offset - here.1) here.2⟩
  | next :: later =>
    if next.1 ≤ offset then locate offset (line + 1) next later
    else ⟨line, columnAfter 1 (offset - here.1) here.2⟩

/-- The position of an offset of the source the index was made of. -/
def position (index : LineIndex) (offset : Nat) : Position :=
  match index.lines with
  | [] => .first
  | first :: later => locate offset 1 first later

end LineIndex

end HostScript
