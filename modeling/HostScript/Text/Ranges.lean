/-!
# Text/Ranges — sets of characters given by ranges

A property of characters is a table of closed ranges of code points.  `Ranges.has_iff` reads a
table: a character has the property when some range holds its code point.
-/

namespace HostScript.Text

/-- Closed ranges of code points. -/
abbrev Ranges := Array (Nat × Nat)

/-- Whether some range holds the character. -/
def Ranges.has (ranges : Ranges) (c : Char) : Bool :=
  ranges.any fun r => r.1 ≤ c.toNat && c.toNat ≤ r.2

theorem Ranges.has_iff {ranges : Ranges} {c : Char} :
    ranges.has c = true ↔ ∃ r ∈ ranges, r.1 ≤ c.toNat ∧ c.toNat ≤ r.2 := by
  simp only [Ranges.has, Array.any_eq_true', Bool.and_eq_true, decide_eq_true_eq]

end HostScript.Text
