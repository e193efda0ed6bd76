import HostScript.Text.Parts

/-!
# Value — what scripts compute with

Truth values, numbers and strings are themselves.  Lists, namespaces, functions and the contents of
host objects live in a store and are shared: their values are references, and two of them are the
same when they refer to the same place.
-/

namespace HostScript

/-! ## References -/

/-- A list of the store. -/
structure ListId where
  index : Nat
  deriving DecidableEq, Repr, Inhabited

/-- A namespace of the store. -/
structure NamespaceId where
  index : Nat
  deriving DecidableEq, Repr, Inhabited

/-- A function of the store. -/
structure FunctionId where
  index : Nat
  deriving DecidableEq, Repr, Inhabited

/-- The slots of an activation, in the store. -/
structure FrameId where
  index : Nat
  deriving DecidableEq, Repr, Inhabited

/-- What a host object holds, in the store. -/
structure PayloadId where
  index : Nat
  deriving DecidableEq, Repr, Inhabited

/-- A runtime of the store. -/
structure RuntimeId where
  index : Nat
  deriving DecidableEq, Repr, Inhabited

/-- A host type, by its place among the registered types. -/
structure TypeId where
  index : Nat
  deriving DecidableEq, Repr, Inhabited

/-! ## Types, functions and objects, as values know them -/

/-- The kinds of values without a host type of their own whose members a host type may describe. -/
inductive Primitive where
  | bool | int | float | text | list
  deriving DecidableEq, Repr

/-- What a value knows about a host type: its identity, its dotted name, the kind of values it
describes, and all types it is declared to be a subtype of. -/
structure TypeInfo where
  id : TypeId
  fullName : String
  primitive? : Option Primitive
  ancestors : List TypeId
  deriving DecidableEq, Repr, Inhabited

namespace TypeInfo

/-- The last part of the dotted name. -/
def name (t : TypeInfo) : String := Text.lastPart t.fullName

/-- A type is a subtype of itself and of its ancestors. -/
def isSubtypeOf (t : TypeInfo) (other : TypeId) : Bool := t.id = other || t.ancestors.contains other

end TypeInfo

/-- What a value knows about a function: its identity, its name and the number of arguments it
takes. -/
structure FunctionInfo where
  id : FunctionId
  name : String
  arity : Nat
  deriving DecidableEq, Repr, Inhabited

/-- An instance of a host type. -/
structure HostObject where
  type : TypeInfo
  payload : PayloadId
  deriving DecidableEq, Repr, Inhabited

/-! ## Values -/

/-- What scripts compute with. -/
inductive Value where
  | null
  | bool (value : Bool)
  | int (value : Int64)
  | float (value : Float)
  | text (value : String)
  | list (id : ListId)
  | space (id : NamespaceId)
  | function (info : FunctionInfo)
  /-- A host type itself, as opposed to an instance of it. -/
  | type (info : TypeInfo)
  | object (object : HostObject)
  deriving Repr, Inhabited

/-- What a cached decision depends on: the kind of a value and, for objects and type handles, the
type. -/
inductive Shape where
  | null | bool | int | float | text | list | space | function
  | type (info : TypeInfo)
  | object (type : TypeInfo)
  deriving DecidableEq, Repr

namespace Value

/-- The shape of a value. -/
def shape : Value → Shape
  | null => .null
  | bool _ => .bool
  | int _ => .int
  | float _ => .float
  | text _ => .text
  | list _ => .list
  | space _ => .space
  | function _ => .function
  | type info => .type info
  | object o => .object o.type

/-- The name of a value's type in messages. -/
def typeName : Value → String
  | null => "null"
  | bool _ => "bool"
  | int _ => "int"
  | float _ => "float"
  | text _ => "string"
  | list _ => "list"
  | space _ => "namespace"
  | function _ => "function"
  | type info => "type " ++ info.fullName
  | object o => o.type.name

/-- The text of a truth value. -/
def truthText (b : Bool) : String := if b then "true" else "false"

/-- Whether a test with this value holds: only `false` and null fail, so zero and the empty string
hold. -/
def holds : Value → Bool
  | bool b => b
  | null => false
  | _ => true

/-- The value as a float: floats, and integers turned into the nearest float. -/
def toFloat? : Value → Option Float
  | float x => some x
  | int i => some i.toFloat
  | _ => none

/-- Whether two values are the same: truth values, numbers and strings by content, everything else
by identity.  A float that is no number is not even the same as itself. -/
def same : Value → Value → Bool
  | null, null => true
  | bool a, bool b => a == b
  | int a, int b => a == b
  | float a, float b => a == b
  | text a, text b => a == b
  | list a, list b => a = b
  | space a, space b => a = b
  | function a, function b => a.id = b.id
  | type a, type b => a.id = b.id
  | object a, object b => a.payload = b.payload
  | _, _ => false

/-- The kind of values whose members a host type may describe, if this is one. -/
def primitive? : Value → Option Primitive
  | bool _ => some .bool
  | int _ => some .int
  | float _ => some .float
  | text _ => some .text
  | list _ => some .list
  | _ => none

end Value

end HostScript
