/-!
# Numeral/Binary64 — floats as integers times powers of two

A finite float is a sign, a natural number `m` and an exponent `q`, and stands for `± m · 2 ^ q`.
Rounding to a whole number and the remainder of a division are exact on this form, so both are
computed on integers.
-/

namespace HostScript.Numeral

/-- What a float stands for. -/
inductive Real where
  /-- No number. -/
  | nan
  | infinite (negative : Bool)
  /-- `± m · 2 ^ q` with `m < 2 ^ 53` and `-1074 ≤ q ≤ 971`. -/
  | finite (negative : Bool) (m : Nat) (q : Int)
  deriving DecidableEq, Repr

/-- What a float stands for, read off its bits. -/
def Real.ofFloat (x : Float) : Real :=
  let bits := x.toBits.toNat
  let negative := Nat.pow 2 63 ≤ bits
  let exponent : Nat := bits / Nat.pow 2 52 % Nat.pow 2 11
  let fraction : Nat := bits % Nat.pow 2 52
  if exponent = 2047 then if fraction = 0 then .infinite negative else .nan
  else if exponent = 0 then .finite negative fraction (-1074)
  else .finite negative (Nat.pow 2 52 + fraction) ((exponent : Int) - 1075)

/-- The float `± m · 2 ^ q`, for an `m` below `2 ^ 53` and a `q` of at least `-1074` where the
product is representable. -/
def ofParts (negative : Bool) (m : Nat) (q : Int) : Float :=
  let shift := min (52 - m.log2) (q + 1074).toNat
  let scaled := m <<< shift
  let sign := if negative then Nat.pow 2 63 else 0
  let bits :=
    if m = 0 then 0
    else if scaled < Nat.pow 2 52 then scaled
    else (q - shift + 1075).toNat * Nat.pow 2 52 + (scaled - Nat.pow 2 52)
  Float.ofBits (sign + bits).toUInt64

/-- The nearest whole number, the even one of two that are equally near. -/
def roundEven (x : Float) : Float :=
  match Real.ofFloat x with
  | .finite negative m q =>
    if 0 ≤ q then x
    else
      let unit := Nat.pow 2 (-q).toNat
      let below := m / unit
      let rest := m % unit
      let up := unit < 2 * rest || (2 * rest = unit && below % 2 = 1)
      ofParts negative (if up then below + 1 else below) 0
  | _ => x

/-- The remainder of a division that truncates: it has the sign of the dividend. -/
def remainder (x y : Float) : Float :=
  match Real.ofFloat x, Real.ofFloat y with
  | .finite negative m q, .finite _ n r =>
    if n = 0 then Float.ofBits 0x7FF8000000000000
    else
      let low := min q r
      let rest := (m <<< (q - low).toNat) % (n <<< (r - low).toNat)
      ofParts negative rest low
  | .finite _ _ _, .infinite _ => x
  | _, _ => Float.ofBits 0x7FF8000000000000

end HostScript.Numeral
