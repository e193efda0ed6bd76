import HostScript.Proofs.Machine.Failures
import HostScript.Proofs.Source.Tiling

/-!
# Proofs/Source/Positions — two ways to positions

A scanner counts lines and columns while it reads, and the index of lines finds them for offsets later.
The two agree wherever a token, an error or the end of a source stands (`Scanner.At.found`), so there is
one system of positions: what is reported of a word that cannot be read, of a tree that is no program and
of an operation that fails is what the index finds for the start of a span (`positions_agree`).

Positions here are unbounded.  Neither a line nor a column is more than one beyond the number of bytes
before it (`Position.counts_past`).
-/

namespace HostScript

open Text (byteLength)

variable {source : List Char}

/-! ## Positions of spans -/

/-- **A position that is found for a span**: the one of its start, by the index of lines. -/
def Position.Found (source : List Char) (p : Position) (span : Span) : Prop :=
  p = (LineIndex.ofSource source).position span.start

/-- What stands at a spot has the position that is found for it. -/
theorem Position.Stands.found {p : Position} {span : Span} (h : p.Stands source span) :
    p.Found source span := by
  obtain ⟨spot, rfl, start⟩ := h
  unfold Position.Found
  rw [start, LineIndex.position_offset]

/-- A line and a column grow by no more than the bytes that they are carried past. -/
theorem Position.counts_past (p : Position) (front : List Char) :
    (p.past front).line ≤ p.line + byteLength front ∧
      (p.past front).column ≤ max p.column 1 + byteLength front := by
  induction front generalizing p with
  | nil => exact ⟨Nat.le_refl _, Nat.le_max_left _ _⟩
  | cons c front ih =>
    obtain ⟨line, column⟩ := ih (p.after c)
    have wide : 0 < c.utf8Size := c.utf8Size_pos
    rw [Position.past_cons, Text.byteLength_cons]
    by_cases newline : c = '\n'
    · subst newline
      rw [Position.after_newline] at line column ⊢
      dsimp only at line column ⊢
      omega
    · rw [Position.after_of_ne p newline] at line column ⊢
      dsimp only at line column ⊢
      omega

/-- **Counts of a spot are at most one more than its offset.** -/
theorem Spot.counts (spot : Spot source) :
    spot.position.line ≤ spot.offset + 1 ∧ spot.position.column ≤ spot.offset + 1 := by
  obtain ⟨line, column⟩ := Position.first.counts_past spot.front
  have one : max Position.first.column 1 = 1 := rfl
  rw [one] at column
  exact ⟨Nat.le_trans line (Nat.le_of_eq (Nat.add_comm _ _)),
    Nat.le_trans column (Nat.le_of_eq (Nat.add_comm _ _))⟩

/-! ## Errors -/

/-- **An error that is met before a source runs has the position that is found for its span.** -/
theorem ScriptError.FailsIn.found {files : Files} {text : String} {e : ScriptError} {span : Span}
    (h : e.FailsIn files text) (known : e.span? = some span) :
    ∃ p, e.position? = some p ∧ p.Found text.toList span := by
  cases e with
  | lex e =>
    obtain rfl := Option.some.inj known
    exact ⟨_, rfl, Position.Stands.found h⟩
  | parse e =>
    obtain rfl := Option.some.inj known
    exact ⟨_, rfl, Position.Stands.found h⟩
  | compile e =>
    obtain rfl := Option.some.inj known
    exact ⟨_, rfl, Position.Stands.found h⟩
  | eval e => cases known

/-- **An operation has the position that is found for a span of the tree.** -/
theorem OperatesAt.found {text : String} {p : Position} (h : OperatesAt text p) :
    ∃ tree, parse text = .ok tree ∧ ∃ span ∈ tree.spans, p.Found text.toList span := by
  obtain ⟨program, ⟨number, tree, parsed, compiled⟩, s?, site⟩ := h
  exact ⟨tree, parsed, sites_compile compiled _ site⟩

/-! ## Sources -/

namespace TokenStream

/-- The tokens and errors of a stream and the token that stands for its end. -/
def allItems (stream : TokenStream) : List (Except LexError Token) :=
  stream.items ++ [.ok stream.final.token]

theorem Stands.item {stream : TokenStream} (h : stream.Stands source) {item : Except LexError Token}
    (mem : item ∈ stream.allItems) : (itemPosition item).Stands source (itemSpan item) := by
  rcases List.mem_append.1 mem with before | last
  · have there := h.items item before
    cases item <;> exact there
  · obtain rfl := List.mem_singleton.1 last
    exact h.final

end TokenStream

end HostScript
