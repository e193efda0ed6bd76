import HostScript.Namespace
import HostScript.Numeral.Fraction
import HostScript.Text.Quoted
import HostScript.Value

/-!
# Heap — what values share

Lists, namespaces and the contents of host objects are changed in place and shared by all values that
refer to them.  They are kept in tables, each kind in one of its own; a reference is a place in its
table, and places are only added.  Reading a place that is not there gives an empty thing and changing
it changes nothing.

Hosts and scripts see the same heap.
-/

namespace HostScript

/-- What a host object holds: a value, or a text under construction. -/
inductive Payload where
  | state (value : Value)
  | builder (text : String)
  deriving Repr, Inhabited

/-- The tables of what values share, and what has been printed. -/
structure Heap where
  lists : Array (Array Value)
  namespaces : Array (Namespace Value)
  payloads : Array Payload
  printed : String
  deriving Repr, Inhabited

namespace Heap

/-- Nothing has been made. -/
def empty : Heap := ⟨#[], #[], #[], ""⟩

/-! ## Lists -/

/-- A new list. -/
def newList (h : Heap) (items : List Value) : ListId × Heap :=
  (⟨h.lists.size⟩, { h with lists := h.lists.push items.toArray })

/-- The items of a list. -/
def list (h : Heap) (id : ListId) : Array Value := h.lists[id.index]?.getD #[]

/-- Changes the items of a list. -/
def changeList (h : Heap) (id : ListId) (f : Array Value → Array Value) : Heap :=
  { h with lists := h.lists.modify id.index f }

/-- A list with a value after its items. -/
def pushItem (h : Heap) (id : ListId) (value : Value) : Heap := h.changeList id (·.push value)

/-- A list without items. -/
def clearList (h : Heap) (id : ListId) : Heap := h.changeList id fun _ => #[]

/-- Puts a value at a place of a list, and tells whether the list has that place. -/
def setItem (h : Heap) (id : ListId) (index : Nat) (value : Value) : Bool × Heap :=
  if index < (h.list id).size then (true, h.changeList id (·.setIfInBounds index value))
  else (false, h)

/-- Whether a list has an item that is the same as a value. -/
def listContains (h : Heap) (id : ListId) (value : Value) : Bool :=
  (h.list id).any (Value.same · value)

/-! ## Namespaces -/

/-- A new namespace without names. -/
def newSpace (h : Heap) : NamespaceId × Heap :=
  (⟨h.namespaces.size⟩, { h with namespaces := h.namespaces.push .empty })

/-- The table of a namespace. -/
def space (h : Heap) (id : NamespaceId) : Namespace Value := h.namespaces[id.index]?.getD .empty

/-- Changes the table of a namespace. -/
def setSpace (h : Heap) (id : NamespaceId) (table : Namespace Value) : Heap :=
  { h with namespaces := h.namespaces.setIfInBounds id.index table }

/-- What a name is bound to in a namespace. -/
def get? (h : Heap) (id : NamespaceId) (name : String) : Option Value := (h.space id).get? name

/-- Binds a name in a namespace. -/
def bind (h : Heap) (id : NamespaceId) (name : String) (value : Value) : Heap :=
  h.setSpace id ((h.space id).insert name value)

/-- Unbinds a name in a namespace. -/
def unbind (h : Heap) (id : NamespaceId) (name : String) : Heap :=
  h.setSpace id ((h.space id).erase name)

/-- The namespace a name is bound to, made if the name is free; none if it is bound to anything
else. -/
def child (h : Heap) (id : NamespaceId) (name : String) : Option NamespaceId × Heap :=
  match h.get? id name with
  | some (.space inner) => (some inner, h)
  | some _ => (none, h)
  | none =>
    let (inner, h) := h.newSpace
    (some inner, h.bind id name (.space inner))

/-! ## Payloads -/

/-- A new payload. -/
def newPayload (h : Heap) (payload : Payload) : PayloadId × Heap :=
  (⟨h.payloads.size⟩, { h with payloads := h.payloads.push payload })

/-- A new instance of a host type that holds a payload. -/
def newObject (h : Heap) (type : TypeInfo) (payload : Payload) : HostObject × Heap :=
  let (id, h) := h.newPayload payload
  (⟨type, id⟩, h)

/-- What a host object holds. -/
def payload? (h : Heap) (id : PayloadId) : Option Payload := h.payloads[id.index]?

/-- Changes what a host object holds. -/
def setPayload (h : Heap) (id : PayloadId) (payload : Payload) : Heap :=
  { h with payloads := h.payloads.setIfInBounds id.index payload }

/-! ## Texts of values -/

/-- Prints a text. -/
def print (h : Heap) (text : String) : Heap := { h with printed := h.printed ++ text }

/-- The text of a value, with lists opened up to a depth. -/
def displayTo (h : Heap) : Nat → Value → String
  | _, .null => "null"
  | _, .bool b => Value.truthText b
  | _, .int i => Numeral.wordText i
  | _, .float x => Numeral.fractionText Numeral.plainStyle x
  | _, .text t => t
  | _, .space _ => "<namespace>"
  | _, .function info => "<function " ++ info.name ++ ">"
  | _, .type info => info.fullName
  | _, .object o => "<" ++ o.type.name ++ ">"
  | 0, .list _ => "[]"
  | depth + 1, .list id =>
    "[" ++ ", ".intercalate ((h.list id).toList.map fun item => h.displayTo depth item) ++ "]"

/-- The text of a value.  Lists that do not hold themselves are nested at most as deep as there are
lists. -/
def display (h : Heap) (v : Value) : String := h.displayTo h.lists.size v

/-- The description of a value: its kind and its text. -/
def describe (h : Heap) : Value → String
  | .text t => "Str(" ++ Text.quoted t ++ ")"
  | .int i => "Int(" ++ Numeral.wordText i ++ ")"
  | .float x => "Float(" ++ Numeral.fractionText Numeral.explicitStyle x ++ ")"
  | .bool b => "Bool(" ++ Value.truthText b ++ ")"
  | .null => "Null"
  | v => v.typeName ++ "(" ++ h.display v ++ ")"

end Heap

end HostScript
