/-!
# Text/Parts — dotted names

A dotted name is a list of parts; an empty text is one empty part.
-/

namespace HostScript.Text

/-- The parts of a text between the separators. -/
def partsOf (separator : Char) : List Char → List (List Char)
  | [] => [[]]
  | c :: cs =>
    if c = separator then [] :: partsOf separator cs
    else
      match partsOf separator cs with
      | [] => [[c]]
      | part :: parts => (c :: part) :: parts

/-- The parts of a dotted name. -/
def dottedParts (name : String) : List String := (partsOf '.' name.toList).map String.ofList

/-- The last part of a dotted name. -/
def lastPart (name : String) : String := (dottedParts name).getLast?.getD ""

end HostScript.Text
