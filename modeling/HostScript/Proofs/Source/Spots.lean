import HostScript.Report
import Mathlib.Data.List.Induction

/-!
# Proofs/Source/Spots — the spots of a source

A spot of a source divides it into what comes before it and what comes after.  It has an offset, the
number of bytes before it, and a position, the first one carried past what comes before.  The index of
lines leads from the offset to the position (`LineIndex.position_offset`), and a report leads back
(`Report.offsetOf_position`), whatever the characters are.  But the label of a report shows the position
only where the text before the spot is plain (`Report.label?_offset`).
-/

namespace HostScript

open Text (byteLength)

/-- The position after a text that starts at a position. -/
def Position.past (p : Position) (front : List Char) : Position := front.foldl Position.after p

namespace Position

@[simp] theorem past_nil (p : Position) : p.past [] = p := rfl

@[simp] theorem past_cons (p : Position) (c : Char) (front : List Char) :
    p.past (c :: front) = (p.after c).past front := rfl

theorem past_append (p : Position) (front back : List Char) :
    p.past (front ++ back) = (p.past front).past back := List.foldl_append

theorem after_newline (p : Position) : p.after '\n' = ⟨p.line + 1, 1⟩ := if_pos rfl

theorem after_of_ne (p : Position) {c : Char} (other : c ≠ '\n') : p.after c = ⟨p.line, p.column + 1⟩ :=
  if_neg other

end Position

/-- **A spot of a source.** -/
structure Spot (source : List Char) where
  /-- What comes before it. -/
  front : List Char
  /-- What comes after it. -/
  rest : List Char
  split : source = front ++ rest

namespace Spot

variable {source : List Char}

/-- The number of bytes before a spot. -/
def offset (spot : Spot source) : Nat := byteLength spot.front

/-- The position of a spot. -/
def position (spot : Spot source) : Position := Position.first.past spot.front

/-- A spot after the line feed that ends the source. -/
def IsPastLastLine (spot : Spot source) : Prop := spot.rest = [] ∧ spot.front.getLast? = some '\n'

/-- The spot before the source. -/
def start (source : List Char) : Spot source := ⟨[], source, rfl⟩

theorem offset_le (spot : Spot source) : spot.offset ≤ byteLength source := by
  have split := congrArg byteLength spot.split
  rw [Text.byteLength_append] at split
  exact split ▸ Nat.le_add_right _ _

end Spot

/-! ## The index of lines -/

namespace LineIndex

theorem columnAfter_byteLength (column : Nat) (front rest : List Char) :
    columnAfter column (byteLength front) (front ++ rest) = column + front.length := by
  induction front generalizing column with
  | nil =>
    rw [Text.byteLength_nil, columnAfter]
    rfl
  | cons c front ih =>
    have wide : 0 < c.utf8Size := c.utf8Size_pos
    obtain ⟨bytes, size⟩ : ∃ n, byteLength (c :: front) = n + 1 :=
      ⟨byteLength (c :: front) - 1, by rw [Text.byteLength_cons]; omega⟩
    have left : bytes + 1 - c.utf8Size = byteLength front := by
      rw [← size, Text.byteLength_cons, Nat.add_sub_cancel_left]
    have fits : c.utf8Size ≤ bytes + 1 := by
      rw [← size, Text.byteLength_cons]
      exact Nat.le_add_right _ _
    rw [size, List.cons_append, columnAfter, if_pos fits, left, ih, List.length_cons]
    omega

/-- Later lines start after the offset that a text starts at. -/
theorem lt_of_mem_linesAfter {offset : Nat} {cs : List Char} {line : Nat × List Char}
    (mem : line ∈ linesAfter offset cs) : offset < line.1 := by
  induction cs generalizing offset with
  | nil => exact absurd mem List.not_mem_nil
  | cons c rest ih =>
    have wide : 0 < c.utf8Size := c.utf8Size_pos
    unfold linesAfter at mem
    dsimp only at mem
    split at mem
    · rcases List.mem_cons.1 mem with rfl | later
      · exact Nat.lt_add_of_pos_right wide
      · have := ih later
        omega
    · have := ih mem
      omega

/-- The last line that starts at or before an offset, where all later ones start after it. -/
theorem locate_of_lt {offset line : Nat} {here : Nat × List Char} {later : List (Nat × List Char)}
    (after : ∀ next ∈ later, offset < next.1) :
    locate offset line here later = ⟨line, columnAfter 1 (offset - here.1) here.2⟩ := by
  cases later with
  | nil => rfl
  | cons next rest =>
    rw [locate, if_neg]
    exact Nat.not_le.2 (after next List.mem_cons_self)

/-- From a line on whose start is known, in which `seen` has been read before the text. -/
theorem locate_past (offset line : Nat) (seen front rest : List Char) :
    locate (offset + byteLength seen + byteLength front) line (offset, seen ++ (front ++ rest))
        (linesAfter (offset + byteLength seen) (front ++ rest)) =
      Position.past ⟨line, seen.length + 1⟩ front := by
  induction front generalizing offset line seen with
  | nil =>
    rw [Text.byteLength_nil, Nat.add_zero, locate_of_lt fun next => lt_of_mem_linesAfter,
      Nat.add_sub_cancel_left, List.nil_append, columnAfter_byteLength, Nat.add_comm]
    rfl
  | cons c front ih =>
    have onward : offset + byteLength seen + byteLength (c :: front) =
        offset + byteLength seen + c.utf8Size + byteLength front := by
      rw [Text.byteLength_cons, Nat.add_assoc _ c.utf8Size]
    rw [List.cons_append, linesAfter, onward, Position.past_cons]
    split
    -- After a line feed the next line is the one that is known, and nothing has been read of it.
    next newline =>
      subst newline
      have fresh := ih (offset + byteLength seen + '\n'.utf8Size) (line + 1) []
      rw [locate, if_pos (Nat.le_add_right _ _), Position.after_newline]
      exact fresh
    next other =>
      have further := ih offset line (seen ++ [c])
      have longer : offset + byteLength (seen ++ [c]) = offset + byteLength seen + c.utf8Size := by
        rw [Text.byteLength_append, Text.byteLength_cons, Text.byteLength_nil, Nat.add_zero, Nat.add_assoc]
      rw [longer, List.append_assoc, List.length_append] at further
      rw [Position.after_of_ne _ other]
      exact further

/-- **The index finds the position of every spot** by its offset. -/
theorem position_offset {source : List Char} (spot : Spot source) :
    (ofSource source).position spot.offset = spot.position := by
  obtain ⟨front, rest, rfl⟩ := spot
  have found := locate_past 0 1 [] front rest
  rw [Text.byteLength_nil, Nat.add_zero, Nat.zero_add] at found
  exact found

end LineIndex

namespace Report

/-! ## Offsets -/

theorem dropLines_succ (n : Nat) (cs : List Char) :
    dropLines (n + 1) cs = ((dropLines n cs).dropWhile (· ≠ '\n')).drop 1 := by
  induction n generalizing cs with
  | zero => rfl
  | succ n ih =>
    rw [dropLines, ih]
    rfl

/-- After the lines before a spot there is the part of its line before it, and what comes after. -/
theorem dropLines_past (front rest : List Char) :
    ∃ n last, Position.first.past front = ⟨n + 1, last.length + 1⟩ ∧
      dropLines n (front ++ rest) = last ++ rest ∧ '\n' ∉ last := by
  induction front using List.reverseRecOn generalizing rest with
  | nil => exact ⟨0, [], rfl, rfl, List.not_mem_nil⟩
  | append_singleton front c ih =>
    obtain ⟨n, last, position, dropped, inside⟩ := ih (c :: rest)
    rw [Position.past_append, position, List.append_assoc, Position.past_cons, Position.past_nil]
    by_cases newline : c = '\n'
    · subst newline
      refine ⟨n + 1, [], Position.after_newline _, ?_, List.not_mem_nil⟩
      have skipped : (last ++ '\n' :: rest).dropWhile (· ≠ '\n') = '\n' :: rest := by
        have before : ∀ d ∈ last, decide (d ≠ '\n') = true := by
          rintro d mem
          refine decide_eq_true ?_
          rintro rfl
          exact inside mem
        rw [List.dropWhile_append_of_pos before]
        rfl
      rw [dropLines_succ]
      show ((dropLines n (front ++ '\n' :: rest)).dropWhile _).drop 1 = _
      rw [dropped, skipped]
      rfl
    · refine ⟨n, last ++ [c], ?_, ?_, ?_⟩
      · rw [Position.after_of_ne _ newline, List.length_append]
        rfl
      · rw [List.append_assoc]
        exact dropped
      · rw [List.mem_append, List.mem_singleton]
        exact not_or.2 ⟨inside, Ne.symm newline⟩

/-- **The offset of the position of a spot** is the spot's. -/
theorem offsetOf_position {source : List Char} (spot : Spot source) :
    offsetOf source spot.position = spot.offset := by
  obtain ⟨front, rest, rfl⟩ := spot
  obtain ⟨n, last, position, dropped, -⟩ := dropLines_past front rest
  unfold offsetOf Spot.position Spot.offset
  dsimp only
  rw [position]
  dsimp only
  rw [Nat.add_sub_cancel, Nat.add_sub_cancel, dropped, List.drop_left, Text.byteLength_append, Nat.add_sub_cancel]

/-- A position is that of spots with one offset. -/
theorem offset_eq_of_position {source : List Char} {spot other : Spot source}
    (same : spot.position = other.position) : spot.offset = other.offset := by
  rw [← offsetOf_position, same, offsetOf_position]

/-! ## Labels -/

/-- **A plain text**: each character takes one byte, and none but the line feed ends a line. -/
def IsPlain (front : List Char) : Prop := ∀ c ∈ front, c.utf8Size = 1 ∧ (endsLine c = true → c = '\n')

instance (front : List Char) : Decidable (IsPlain front) :=
  -- Not inferred, so that it goes over the text and not over all characters.
  List.decidableBAll _ front

theorem IsPlain.byteLength {front : List Char} (plain : IsPlain front) :
    byteLength front = front.length := by
  induction front with
  | nil => rfl
  | cons c front ih =>
    obtain ⟨⟨one, -⟩, others⟩ := List.forall_mem_cons.1 plain
    rw [Text.byteLength_cons, one, ih others, List.length_cons, Nat.add_comm]

/-- Lines of a report start after the place that a text starts at. -/
theorem lt_of_mem_lineStarts {place : Nat} {cs : List Char} {start : Nat}
    (mem : start ∈ lineStarts place cs) : place < start := by
  induction place, cs using lineStarts.induct with
  | case1 => exact absurd mem List.not_mem_nil
  | case2 => exact absurd mem List.not_mem_nil
  | case3 => exact absurd mem List.not_mem_nil
  | case4 place rest more ih =>
    rw [lineStarts.eq_4 place rest more] at mem
    rcases List.mem_cons.1 mem with rfl | later
    · omega
    · have := ih later
      omega
  | case5 place c rest more final pair ends ih =>
    rw [lineStarts.eq_5 place c rest more final pair, if_pos ends] at mem
    rcases List.mem_cons.1 mem with rfl | later
    · omega
    · have := ih later
      omega
  | case6 place c rest more final pair inside ih =>
    rw [lineStarts.eq_5 place c rest more final pair, if_neg inside] at mem
    have := ih mem
    omega

/-- A plain character ends a line just if it is a line feed, unless it is the last one. -/
theorem lineStarts_cons {place : Nat} {c : Char} {rest : List Char}
    (plain : endsLine c = true → c = '\n') (more : rest ≠ []) :
    lineStarts place (c :: rest) =
      if c = '\n' then (place + 1) :: lineStarts (place + 1) rest else lineStarts (place + 1) rest := by
  have other : c ≠ '\r' := by
    rintro rfl
    exact absurd (plain rfl) (by decide)
  rw [lineStarts.eq_5 place c rest more (fun same => absurd same other) fun _ same => absurd same other]
  by_cases newline : c = '\n'
  · subst newline
    rfl
  · rw [if_neg newline, if_neg fun ends => newline (plain ends)]

/-- **Plain lines are counted alike**: the lines of a report that start at or before a place, and the
distance from the last of these, make its position, unless the place is after the line feed that ends
the source. -/
theorem past_eq {place line column : Nat} {front rest : List Char} (plain : IsPlain front)
    (shown : rest ≠ [] ∨ front.getLast? ≠ some '\n') (first : 1 ≤ column) (before : column ≤ place + 1) :
    Position.past ⟨line, column⟩ front =
      ⟨line + ((lineStarts place (front ++ rest)).filter (· ≤ place + front.length)).length,
        place + front.length - ((lineStarts place (front ++ rest)).filter
          (· ≤ place + front.length)).getLast?.getD (place + 1 - column) + 1⟩ := by
  induction front generalizing place line column with
  | nil =>
    have none : (lineStarts place ([] ++ rest)).filter (· ≤ place + 0) = [] := by
      refine List.filter_eq_nil_iff.2 fun start mem => ?_
      have := lt_of_mem_lineStarts mem
      simp only [decide_eq_true_eq]
      omega
    rw [List.length_nil, none, Position.past_nil]
    refine congrArg (Position.mk line) ?_
    show column = place + 0 - (place + 1 - column) + 1
    omega
  | cons c front ih =>
    obtain ⟨⟨-, own⟩, others⟩ := List.forall_mem_cons.1 plain
    -- The last character ends no line for a report, so it must not be a line feed.
    by_cases more : front ++ rest = []
    · obtain ⟨rfl, rfl⟩ := List.append_eq_nil_iff.1 more
      have other : c ≠ '\n' := by
        rintro rfl
        rcases shown with never | never
        · exact never rfl
        · exact never rfl
      rw [Position.past_cons, Position.past_nil, Position.after_of_ne _ other]
      refine congrArg (Position.mk line) ?_
      show column + 1 = place + 1 - (place + 1 - column) + 1
      omega
    · have shown' : rest ≠ [] ∨ front.getLast? ≠ some '\n' := by
        rcases shown with shown | shown
        · exact .inl shown
        · cases front with
          | nil => exact .inr nofun
          | cons d front => exact .inr (by rwa [List.getLast?_cons_cons] at shown)
      have onward : place + (c :: front).length = place + 1 + front.length := by
        rw [List.length_cons]
        omega
      rw [List.cons_append, lineStarts_cons own more, onward, Position.past_cons]
      split
      next newline =>
        subst newline
        have counted : decide (place + 1 ≤ place + 1 + front.length) = true :=
          decide_eq_true (Nat.le_add_right _ _)
        have further := @ih (place + 1) (line + 1) 1 others shown' (Nat.le_refl 1) (Nat.le_add_left _ _)
        rw [Nat.add_sub_cancel] at further
        rw [Position.after_newline, List.filter_cons, if_pos counted, List.length_cons, List.getLast?_cons,
          Option.getD_some, Nat.add_comm (List.length _) 1, ← Nat.add_assoc]
        exact further
      next other =>
        have further := @ih (place + 1) line (column + 1) others shown' (Nat.le_add_left _ _) (by omega)
        rw [Nat.add_sub_add_right] at further
        rw [Position.after_of_ne _ other]
        exact further

/-- **A label shows the position of its spot** where the text before it is plain, unless the spot is
after the line feed that ends the source. -/
theorem label?_offset {source : List Char} {spot : Spot source} (plain : IsPlain spot.front)
    (inside : ¬spot.IsPastLastLine) {stop : Nat} {p : Position}
    (shown : label? source (spot.offset, stop) = some p) : p = spot.position := by
  obtain ⟨front, rest, rfl⟩ := spot
  have more : rest ≠ [] ∨ front.getLast? ≠ some '\n' := not_and_or.1 inside
  have counted := @past_eq 0 1 1 front rest plain more (Nat.le_refl 1) (Nat.le_refl 1)
  have length : Spot.offset ⟨front, rest, rfl⟩ = 0 + front.length := by
    rw [Nat.zero_add]
    exact plain.byteLength
  unfold label? at shown
  dsimp only at shown
  rw [length] at shown
  split at shown
  · cases shown
  · rw [← Option.some.inj shown, Nat.add_comm (List.length _) 1]
    exact counted.symm

end Report

end HostScript
