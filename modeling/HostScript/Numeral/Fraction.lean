import HostScript.Numeral.Binary64
import HostScript.Numeral.Shortest

/-!
# Numeral/Fraction — decimal text of floats

Floats are written with the fewest digits that read back, in one of two styles: plain, which never
uses an exponent and leaves a whole number without a point, and explicit, which keeps a point and
uses an exponent for very large and very small numbers.
-/

namespace HostScript.Numeral

/-- How a float is written. -/
structure FractionStyle where
  /-- Whether a whole number ends in `.0`. -/
  keepsPoint : Bool
  /-- Whether numbers of magnitude `10 ^ 16` and more, or below `10 ^ -4`, get an exponent. -/
  usesExponent : Bool

/-- How values are shown: digits and a point only where it is needed. -/
def plainStyle : FractionStyle := ⟨false, false⟩

/-- How values are described: always with a point or an exponent. -/
def explicitStyle : FractionStyle := ⟨true, true⟩

/-- A decimal with all its places written out. -/
def positional (keepsPoint : Bool) (d : Decimal) : List Char :=
  let ds := digits d.coefficient
  if 0 ≤ d.exponent then
    ds ++ List.replicate d.exponent.toNat '0' ++ if keepsPoint then ['.', '0'] else []
  else
    let places := (-d.exponent).toNat
    if places < ds.length then
      ds.take (ds.length - places) ++ '.' :: ds.drop (ds.length - places)
    else '0' :: '.' :: List.replicate (places - ds.length) '0' ++ ds

/-- A decimal with one digit before the point and an exponent. -/
def scientific (d : Decimal) : List Char :=
  let ds := digits d.coefficient
  let exponent := d.exponent + (ds.length - 1 : Nat)
  ds.take 1 ++ (if ds.length ≤ 1 then [] else '.' :: ds.drop 1) ++
    'e' :: (integerText exponent).toList

/-- The text of a float. -/
def fractionText (style : FractionStyle) (x : Float) : String :=
  let signed (negative : Bool) (cs : List Char) := String.ofList (if negative then '-' :: cs else cs)
  match Real.ofFloat x with
  | .nan => "NaN"
  | .infinite negative => signed negative ['i', 'n', 'f']
  | .finite negative 0 _ => signed negative (positional style.keepsPoint ⟨0, 0⟩)
  | .finite negative m q =>
    let d := shortest m q
    let magnitude := d.exponent + (digits d.coefficient).length
    signed negative <|
      if style.usesExponent && (magnitude ≤ -4 || 17 ≤ magnitude) then scientific d
      else positional style.keepsPoint d

/-! ## Reading -/

/-- The float nearest to `m · 10 ^ e`.  The result is infinite above every float and zero below
every one, which also bounds the work for a large exponent. -/
def ofDecimal (m : Nat) (e : Int) : Float :=
  let magnitude := e + (digits m).length
  if m = 0 || magnitude < -400 then 0.0
  else if 400 < magnitude then Float.ofBits 0x7FF0000000000000
  else if e < 0 then Float.ofScientific m true (-e).toNat
  else Float.ofScientific m false e.toNat

/-- An exponent: nothing, or a marker and an integer. -/
def exponentPart? : List Char → Option Int
  | [] => some 0
  | c :: cs => if c = 'e' || c = 'E' then integer? cs else none

/-- A float without a sign: digits with at most one point among them, at least one digit, and
perhaps an exponent. -/
def unsignedFraction? (cs : List Char) : Option Float :=
  let whole := cs.takeWhile Text.isDigit
  let rest := cs.dropWhile Text.isDigit
  let (places, rest) :=
    match rest with
    | '.' :: rest => (rest.takeWhile Text.isDigit, rest.dropWhile Text.isDigit)
    | rest => ([], rest)
  if whole.isEmpty && places.isEmpty then none
  else
    (exponentPart? rest).map fun e =>
      ofDecimal (Nat.ofDigitChars 10 (whole ++ places) 0) (e - places.length)

/-- The words that stand for floats without digits, in any letter case. -/
def namedFraction? (cs : List Char) : Option Float :=
  let word := cs.map Char.toLower
  if word = ['n', 'a', 'n'] then some (Float.ofBits 0x7FF8000000000000)
  else if word = ['i', 'n', 'f'] || word = ['i', 'n', 'f', 'i', 'n', 'i', 't', 'y'] then
    some (Float.ofBits 0x7FF0000000000000)
  else none

/-- The float a text stands for: an optional sign before digits or a word. -/
def fraction? (cs : List Char) : Option Float :=
  let unsigned (cs : List Char) := (namedFraction? cs).or (unsignedFraction? cs)
  match cs with
  | '-' :: cs => (unsigned cs).map (- ·)
  | '+' :: cs => unsigned cs
  | cs => unsigned cs

end HostScript.Numeral
