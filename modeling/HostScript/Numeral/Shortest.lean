import HostScript.Numeral.Integer

/-!
# Numeral/Shortest — the shortest decimal that reads back

A positive float `m · 2 ^ q` is read back from every decimal nearer to it than to its neighbours,
and from the two midpoints when `m` is even.  Among the decimals of that interval the shortest is
chosen, among those the nearest, and of two equally near the larger.
-/

namespace HostScript.Numeral

/-- The decimal `coefficient · 10 ^ exponent`. -/
structure Decimal where
  coefficient : Nat
  exponent : Int
  deriving DecidableEq, Repr

/-- A quotient of natural numbers, with the two ends of the interval around it over the same
denominator; the ends belong to the interval when `closed`. -/
structure Interval where
  value : Nat
  low : Nat
  high : Nat
  denominator : Nat
  closed : Bool

namespace Interval

/-- The decimals that read back as `m · 2 ^ q`, in quarters of `2 ^ q`.  The gap below a power of
two is half as wide as the gap above it, except at the smallest exponent. -/
def ofFloat (m : Nat) (q : Int) : Interval :=
  let below := if m = Nat.pow 2 52 ∧ q ≠ -1074 then 1 else 2
  let up := Nat.pow 2 (q - 2).toNat
  { value := 4 * m * up, low := (4 * m - below) * up, high := (4 * m + 2) * up
    denominator := Nat.pow 2 (2 - q).toNat, closed := m % 2 = 0 }

/-- The interval over a unit of `10 ^ e`. -/
def scaled (i : Interval) (e : Int) : Interval :=
  let up := Nat.pow 10 (-e).toNat
  { i with value := i.value * up, low := i.low * up, high := i.high * up,
           denominator := i.denominator * Nat.pow 10 e.toNat }

/-- Whether the interval holds the whole number `n`. -/
def holds (i : Interval) (n : Nat) : Bool :=
  let n := n * i.denominator
  if i.closed then i.low ≤ n && n ≤ i.high else i.low < n && n < i.high

/-- The whole number in the interval that is nearest to its value, the larger of two. -/
def nearest? (i : Interval) : Option Nat :=
  let below := i.value / i.denominator
  let rest := i.value % i.denominator
  match i.holds below, i.holds (below + 1) with
  | true, true => some (if 2 * rest < i.denominator then below else below + 1)
  | true, false => some below
  | false, true => some (below + 1)
  | false, false => none

/-- The number of digits before the point of the value: `k` with
`10 ^ (k - 1) ≤ value < 10 ^ k`.  Below one that is `1 - j`, where `j` is the number of digits of the
largest whole number less than the reciprocal of the value. -/
def magnitude (i : Interval) : Int :=
  if i.denominator ≤ i.value then (digits (i.value / i.denominator)).length
  else 1 - ((digits ((i.denominator - 1) / i.value)).length : Int)

/-- The first grid of at most `fuel` more digits that has a point in the interval. -/
def firstGrid (i : Interval) (exponent : Int) : Nat → Decimal
  | 0 => ⟨i.value / i.denominator, exponent⟩
  | fuel + 1 =>
    match (i.scaled exponent).nearest? with
    | some n => ⟨n, exponent⟩
    | none => firstGrid i (exponent - 1) fuel

end Interval

/-- A decimal without trailing zeros. -/
def Decimal.trimmed (d : Decimal) : Decimal :=
  let zeros := ((digits d.coefficient).reverse.takeWhile (· == '0')).length
  if d.coefficient = 0 then d else ⟨d.coefficient / Nat.pow 10 zeros, d.exponent + zeros⟩

/-- The shortest decimal that reads back as the positive float `m · 2 ^ q`. -/
def shortest (m : Nat) (q : Int) : Decimal :=
  let i := Interval.ofFloat m q
  (i.firstGrid (i.magnitude - 1) 17).trimmed

end HostScript.Numeral
