import HostScript.Library.Arguments
import HostScript.Text.Blank
import HostScript.Text.Search

/-!
# Library/Texts — `System.String` and `System.Text.StringBuilder`

The members of texts count characters, as indexing does.
-/

namespace HostScript.Library

/-! ## Texts -/

/-- A method that makes a text of its receiver. -/
def transform (name : String) (f : String → String) : Method :=
  .onValue name [] fun receiver _ => answer do
    return .text (f (← textReceiver name receiver))

/-- A method that tests its receiver with a text. -/
def predicate (name : String) (test : List Char → List Char → Bool) : Method :=
  .onValue name [.ofType .text] fun receiver args => answer do
    let text ← textReceiver name receiver
    let pattern ← textArgument name args 0
    return .bool (test text.toList pattern.toList)

/-- A number of characters. -/
def characterCount (member : String) (i : Int64) : Except String Nat :=
  match i.toInt.toNat? with
  | some n => .ok n
  | none => .error ("`" ++ member ++ "` expects a non-negative int")

/-- The part of a text from a character on, with a number of characters. -/
def substring (receiver : Value) (args : List Value) : Except String Value := do
  let text ← textReceiver "Substring" receiver
  let start ← characterCount "Substring" (← intArgument "Substring" args 0)
  let length ← characterCount "Substring" (← intArgument "Substring" args 1)
  let cs := text.toList
  if cs.length < start + length then
    throw ("Substring(" ++ toString start ++ ", " ++ toString length ++
      ") is out of range for a string of length " ++ toString cs.length)
  else return .text (String.ofList ((cs.drop start).take length))

/-- The number of characters before a text in the receiver, or minus one. -/
def indexOf (receiver : Value) (args : List Value) : Except String Value := do
  let text ← textReceiver "IndexOf" receiver
  let pattern ← textArgument "IndexOf" args 0
  return match Text.indexOf? pattern.toList text.toList with
    | some n => lengthValue n
    | none => .int (-1)

/-- The receiver with the occurrences of a text replaced by another. -/
def replace (receiver : Value) (args : List Value) : Except String Value := do
  let text ← textReceiver "Replace" receiver
  let pattern ← textArgument "Replace" args 0
  if pattern = "" then throw "Replace needs a non-empty pattern"
  let replacement ← textArgument "Replace" args 1
  return .text (String.ofList (Text.replaceAll pattern.toList replacement.toList text.toList))

/-- The type `System.String`, which describes texts. -/
def textDraft : TypeDraft :=
  (TypeDraft.named "System.String").describing .text
    |>.property (.onValue "Length" fun receiver => answer do
        return lengthValue (← textReceiver "Length" receiver).length)
    |>.method (transform "ToUpper" Text.upper)
    |>.method (transform "ToLower" Text.lower)
    |>.method (transform "Trim" Text.trim)
    |>.method (predicate "Contains" fun text pattern => Text.occurs pattern text)
    |>.method (predicate "StartsWith" fun text pattern => pattern.isPrefixOf text)
    |>.method (predicate "EndsWith" fun text pattern => pattern.isSuffixOf text)
    |>.method (.onValue "IndexOf" [.ofType .text] fun receiver args =>
        answer (indexOf receiver args))
    |>.method (.onValue "Substring" [.ofType .int, .ofType .int] fun receiver args =>
        answer (substring receiver args))
    |>.method (.onValue "Replace" [.ofType .text, .ofType .text] fun receiver args =>
        answer (replace receiver args))

/-! ## Texts under construction -/

/-- Appends the text of a value and answers with the receiver, so that calls can be chained. -/
def append (receiver : Value) (args : List Value) : Effect := fun h =>
  match heldBy Payload.builder? (some receiver) h with
  | some (id, text) =>
    let added := (args.head?.map h.display).getD ""
    (.value receiver, h.setPayload id (.builder (text ++ added)))
  | none => (.fail (wrongReceiver "Append"), h)

/-- The type `System.Text.StringBuilder`. -/
def builderDraft : TypeDraft :=
  TypeDraft.named "System.Text.StringBuilder"
    |>.constructor (.ofPayload [] fun _ => .ok (.builder ""))
    |>.constructor (.ofPayload [.ofType .text] fun args =>
        match textArgument "StringBuilder" args 0 with
        | .ok t => .ok (.builder t)
        | .error message => .error (.host message))
    |>.method (.onValue "Append" [.ofType .any] append)
    |>.method (.onPayload Payload.builder? "ToString" [] fun _ text _ =>
        .pure (.value (.text text)))
    |>.property (.onPayload Payload.builder? "Length" fun _ text =>
        .pure (.value (lengthValue text.length)))

end HostScript.Library
