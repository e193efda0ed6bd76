import HostScript.Library.Arguments
import HostScript.Text.Blank

/-!
# Library/Numbers — `System.Math` and `System.Convert`

Overloads on integers come before those on floats, so that integers stay integers.
-/

namespace HostScript.Library

/-! ## Math -/

/-- The larger of two floats; the other one if one is no number, and the first of two zeros. -/
def maxFloat (x y : Float) : Float := if x.isNaN || x < y then y else x

/-- The smaller of two floats; the other one if one is no number, and the first of two zeros. -/
def minFloat (x y : Float) : Float := if x.isNaN || y < x then y else x

/-- The distance of an integer from zero, modulo `2 ^ 64`. -/
def absInt (i : Int64) : Int64 := if i < 0 then -i else i

/-- A method of one integer. -/
def ofInt (name : String) (f : Int64 → Int64) : Method :=
  .static name [.ofType .int] fun args => answer do
    return .int (f (← intArgument name args 0))

/-- A method of two integers. -/
def ofInts (name : String) (f : Int64 → Int64 → Int64) : Method :=
  .static name [.ofType .int, .ofType .int] fun args => answer do
    return .int (f (← intArgument name args 0) (← intArgument name args 1))

/-- A method of one float. -/
def ofFloat (name : String) (f : Float → Float) : Method :=
  .static name [.ofType .float] fun args => answer do
    return .float (f (← numberArgument name args 0))

/-- A method of two floats. -/
def ofFloats (name : String) (f : Float → Float → Float) : Method :=
  .static name [.ofType .float, .ofType .float] fun args => answer do
    return .float (f (← numberArgument name args 0) (← numberArgument name args 1))

/-- The float nearest to the circle's circumference over its diameter. -/
def pi : Float := Float.ofBits 0x400921FB54442D18

/-- The type `System.Math`. -/
def mathDraft : TypeDraft :=
  TypeDraft.named "System.Math"
    |>.method (ofInt "Abs" absInt)
    |>.method (ofFloat "Abs" Float.abs)
    |>.method (ofInts "Max" fun a b => if a < b then b else a)
    |>.method (ofFloats "Max" maxFloat)
    |>.method (ofInts "Min" fun a b => if b < a then b else a)
    |>.method (ofFloats "Min" minFloat)
    |>.method (ofFloats "Pow" fun x y => x ^ y)
    |>.method (ofFloat "Sqrt" Float.sqrt)
    |>.method (ofFloat "Floor" Float.floor)
    |>.method (ofFloat "Ceiling" Float.ceil)
    |>.method (ofFloat "Round" Numeral.roundEven)
    |>.property (.static "PI" (.pure (.value (.float pi))))

/-! ## Convert -/

/-- The failure of a conversion. -/
def unconvertible (h : Heap) (v : Value) (target : String) : String :=
  "cannot convert " ++ v.typeName ++ " `" ++ h.display v ++ "` to " ++ target

/-- A value as an integer: floats are rounded to the nearest one, the even one of two that are equally
near, and kept within sixty-four bits; texts are numerals with blanks around them. -/
def toInt? : Value → Option Int64
  | .null => some 0
  | .bool b => some (if b then 1 else 0)
  | .int i => some i
  | .float x => if x.isFinite then some (Numeral.roundEven x).toInt64 else none
  | .text t => Numeral.readWord? (Text.trim t).toList
  | _ => none

/-- A value as a float. -/
def toFloat? : Value → Option Float
  | .null => some 0
  | .bool b => some (if b then 1 else 0)
  | .text t => Numeral.fraction? (Text.trim t).toList
  | v => v.toFloat?

/-- A value as a truth value: numbers that are not zero are true, and texts are words in any letter
case with blanks around them. -/
def toBool? : Value → Option Bool
  | .null => some false
  | .bool b => some b
  | .int i => some (i ≠ 0)
  | .float x => some (x != 0)
  | .text t =>
    let word := Text.fold (Text.trim t)
    if word = "true" then some true else if word = "false" then some false else none
  | _ => none

/-- A method that converts its argument. -/
def conversion {α : Type} (name target : String) (convert? : Value → Option α) (make : α → Value) :
    Method :=
  .static name [.ofType .any] fun args h =>
    (Reply.ofExcept do
      let v ← argument name args 0
      match convert? v with
      | some result => return make result
      | none => throw (unconvertible h v target), h)

/-- The type `System.Convert`. -/
def convertDraft : TypeDraft :=
  TypeDraft.named "System.Convert"
    |>.method (conversion "ToInt32" "int" toInt? .int)
    |>.method (conversion "ToDouble" "float" toFloat? .float)
    |>.method (.static "ToString" [.ofType .any] fun args h =>
        (Reply.ofExcept do return .text (h.display (← argument "ToString" args 0)), h))
    |>.method (conversion "ToBoolean" "bool" toBool? .bool)

end HostScript.Library
