import HostScript.Library.Arguments

/-!
# Library/Lists — `System.Collections.List`

Lists are indexed by integers, and by floats without a fraction.
-/

namespace HostScript.Library

/-- A list member that changes or reads its receiver. -/
def onList (name : String) (receiver : Value) (f : ListId → Effect) : Effect :=
  match listReceiver name receiver with
  | .ok id => f id
  | .error message => .refuse message

/-- Whether a float is a whole number. -/
def isWhole (x : Float) : Bool := x.isFinite && x.floor == x

/-- The number an index stands for. -/
def indexNumber : Value → Except EvalError.Cause Int64
  | .int i => .ok i
  | .float x =>
    if isWhole x then .ok x.toInt64
    else .error (.host "list index must be an int, found float")
  | v => .error (.host ("list index must be an int, found " ++ v.typeName))

/-- The place an index stands for in a list of a given length. -/
def listPlace (length : Nat) (index : Value) : Except EvalError.Cause Nat := do
  let i ← indexNumber index
  if 0 ≤ i.toInt ∧ i.toInt < length then return i.toInt.toNat
  else throw (.indexOutOfBounds i length)

/-- Access to lists by index. -/
def listIndexer : Indexer where
  get receiver index := onList "indexer" receiver fun id h =>
    match listPlace (h.list id).size index with
    | .ok place => (.value ((h.list id)[place]?.getD .null), h)
    | .error cause => (.fail cause, h)
  set? := some fun receiver index v => onList "indexer" receiver fun id h =>
    match listPlace (h.list id).size index with
    | .ok place => (.value v, (h.setItem id place v).2)
    | .error cause => (.fail cause, h)

/-- The type `System.Collections.List`, which describes lists. -/
def listDraft : TypeDraft :=
  (TypeDraft.named "System.Collections.List").describing .list
    |>.constructor (.ofValue [] fun _ h =>
        let (id, h) := h.newList []
        (.value (.list id), h))
    |>.method (.onValue "Add" [.ofType .any] fun receiver args =>
        onList "Add" receiver fun id h =>
          (.value .null, h.pushItem id (args.head?.getD .null)))
    |>.property (.onValue "Count" fun receiver =>
        onList "Count" receiver fun id h => (.value (lengthValue (h.list id).size), h))
    |>.method (.onValue "Clear" [] fun receiver _ =>
        onList "Clear" receiver fun id h => (.value .null, h.clearList id))
    |>.method (.onValue "Contains" [.ofType .any] fun receiver args =>
        onList "Contains" receiver fun id h =>
          (.value (.bool (h.listContains id (args.head?.getD .null))), h))
    |>.indexer listIndexer

end HostScript.Library
