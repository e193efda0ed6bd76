import HostScript.Host.Type

/-!
# Library/Arguments — what the members of the library are given

Members are chosen by the types of their parameters, so their arguments are there and of these types
when a script calls them; a host may call a member with anything.
-/

namespace HostScript.Library

/-- An argument of a member. -/
def argument (member : String) (args : List Value) (index : Nat) : Except String Value :=
  match args[index]? with
  | some v => .ok v
  | none => .error ("`" ++ member ++ "` is missing argument " ++ toString index)

/-- An argument that is an integer. -/
def intArgument (member : String) (args : List Value) (index : Nat) : Except String Int64 := do
  match ← argument member args index with
  | .int i => return i
  | _ => throw ("`" ++ member ++ "` expects an int argument")

/-- An argument that is a number, as a float. -/
def numberArgument (member : String) (args : List Value) (index : Nat) : Except String Float := do
  match (← argument member args index).toFloat? with
  | some x => return x
  | none => throw ("`" ++ member ++ "` expects a number argument")

/-- An argument that is a text. -/
def textArgument (member : String) (args : List Value) (index : Nat) : Except String String := do
  match ← argument member args index with
  | .text t => return t
  | _ => throw ("`" ++ member ++ "` expects a string argument")

/-- A receiver that is a text. -/
def textReceiver (member : String) : Value → Except String String
  | .text t => .ok t
  | _ => .error ("`" ++ member ++ "` needs a string receiver")

/-- A receiver that is a list. -/
def listReceiver (member : String) : Value → Except String ListId
  | .list id => .ok id
  | _ => .error ("`" ++ member ++ "` needs a list receiver")

/-- The answer to a result that does not depend on the heap. -/
def answer (result : Except String Value) : Effect := .pure (.ofExcept result)

/-- A length as an integer of scripts. -/
def lengthValue (n : Nat) : Value := .int (Int64.ofNat n)

end HostScript.Library
