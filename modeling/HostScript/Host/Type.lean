import HostScript.EvalError
import HostScript.Heap
import HostScript.Host.Param

/-!
# Host/Type — what hosts describe

A host describes each type it offers by a list of methods, properties and constructors and perhaps
an indexer.  Members are found by their place in these lists.  What a member does is a function of
its receiver, its arguments and the heap; it answers with a value or a failure, or hands over to a
function of a script.

Types are registered: a `Registry` gives each description its identity.
-/

namespace HostScript

/-- How a host member answers. -/
inductive Reply where
  | value (v : Value)
  | fail (cause : EvalError.Cause)
  /-- The answer is what the function answers to these arguments; their number is not checked. -/
  | call (function : FunctionInfo) (args : List Value)
  deriving Repr, Inhabited

namespace Reply

/-- A failure in the host's own words. -/
def refuse (message : String) : Reply := .fail (.host message)

/-- The answer to a result of the host's own. -/
def ofExcept : Except String Value → Reply
  | .ok v => .value v
  | .error message => refuse message

end Reply

/-- What a host member does. -/
abbrev Effect := Heap → Reply × Heap

namespace Effect

/-- Answers without touching the heap. -/
def pure (reply : Reply) : Effect := fun h => (reply, h)

/-- Fails in the host's own words. -/
def refuse (message : String) : Effect := pure (.refuse message)

end Effect

/-! ## Members -/

/-- A method.  A static method is given no receiver. -/
structure Method where
  name : String
  params : List Param
  isStatic : Bool
  run : Option Value → List Value → Effect

/-- A property, writable if it has a setter. -/
structure Property where
  name : String
  isStatic : Bool
  get : Option Value → Effect
  set? : Option (Option Value → Value → Heap → Except EvalError.Cause Unit × Heap)

/-- A constructor, which is told the type it is registered on. -/
structure Constructor where
  params : List Param
  run : TypeInfo → List Value → Effect

/-- Access by index, writable if it has a setter, which is given the index and the value. -/
structure Indexer where
  get : Value → Value → Effect
  set? : Option (Value → Value → Value → Effect)

/-- Runs on the receiver, which has to be there. -/
def onReceiver (member : String) (receiver : Option Value) (f : Value → Effect) : Effect :=
  match receiver with
  | some v => f v
  | none => .refuse ("`" ++ member ++ "` needs an instance")

/-- What a receiver holds, read through a view: none unless it is a host object that holds a payload
of the kind. -/
def heldBy {α : Type} (view : Payload → Option α) (receiver : Option Value) (h : Heap) :
    Option (PayloadId × α) :=
  match receiver with
  | some (.object o) => do
    let held ← view (← h.payload? o.payload)
    return (o.payload, held)
  | _ => none

/-- The failure of a member whose receiver does not hold what the member works on. -/
def wrongReceiver (member : String) : EvalError.Cause :=
  .host ("`" ++ member ++ "` called on the wrong receiver")

/-- Runs on what the receiver holds. -/
def onHeld {α : Type} (view : Payload → Option α) (member : String) (receiver : Option Value)
    (f : PayloadId → α → Effect) : Effect := fun h =>
  match heldBy view receiver h with
  | some (id, held) => f id held h
  | none => (.fail (wrongReceiver member), h)

/-- The value a payload holds. -/
def Payload.state? : Payload → Option Value
  | .state v => some v
  | .builder _ => none

/-- The text a payload holds. -/
def Payload.builder? : Payload → Option String
  | .builder t => some t
  | .state _ => none

namespace Method

/-- A method that works on its receiver. -/
def onValue (name : String) (params : List Param) (f : Value → List Value → Effect) : Method :=
  ⟨name, params, false, fun receiver args => onReceiver name receiver fun v => f v args⟩

/-- A method that works on what its receiver holds. -/
def onPayload {α : Type} (view : Payload → Option α) (name : String) (params : List Param)
    (f : PayloadId → α → List Value → Effect) : Method :=
  ⟨name, params, false, fun receiver args => onHeld view name receiver fun id held => f id held args⟩

/-- A method without a receiver. -/
def static (name : String) (params : List Param) (f : List Value → Effect) : Method :=
  ⟨name, params, true, fun _ args => f args⟩

end Method

namespace Property

/-- A property of the receiver. -/
def onValue (name : String) (get : Value → Effect) : Property :=
  ⟨name, false, fun receiver => onReceiver name receiver get, none⟩

/-- A property of what the receiver holds. -/
def onPayload {α : Type} (view : Payload → Option α) (name : String)
    (get : PayloadId → α → Effect) : Property :=
  ⟨name, false, fun receiver => onHeld view name receiver get, none⟩

/-- A property of what the receiver holds, with a setter. -/
def onPayloadMut {α : Type} (view : Payload → Option α) (name : String)
    (get : PayloadId → α → Effect)
    (set : PayloadId → Value → Heap → Except EvalError.Cause Unit × Heap) : Property :=
  ⟨name, false, fun receiver => onHeld view name receiver get,
    some fun receiver value h =>
      match heldBy view receiver h with
      | some (id, _) => set id value h
      | none => (.error (wrongReceiver name), h)⟩

/-- A property without a receiver. -/
def static (name : String) (get : Effect) : Property := ⟨name, true, fun _ => get, none⟩

end Property

namespace Constructor

/-- A constructor of any value. -/
def ofValue (params : List Param) (f : List Value → Effect) : Constructor :=
  ⟨params, fun _ args => f args⟩

/-- A constructor of an instance that holds a payload. -/
def ofPayload (params : List Param) (f : List Value → Except EvalError.Cause Payload) :
    Constructor :=
  ⟨params, fun type args h =>
    match f args with
    | .ok payload =>
      let (object, h) := h.newObject type payload
      (.value (.object object), h)
    | .error cause => (.fail cause, h)⟩

end Constructor

/-! ## Types -/

/-- What a host describes of a type. -/
structure HostType where
  info : TypeInfo
  methods : List Method
  properties : List Property
  constructors : List Constructor
  indexer? : Option Indexer

/-- The description of a type in words: how many members it has. -/
def HostType.describe (t : HostType) : String :=
  "HostType \x7b full_name: " ++ Text.quoted t.info.fullName ++ ", methods: " ++
    toString t.methods.length ++ ", properties: " ++ toString t.properties.length ++
    ", constructors: " ++ toString t.constructors.length ++ ", .. \x7d"

/-- A type that is being described: everything but its identity.  Members are matched in the order
in which they are added. -/
structure TypeDraft where
  fullName : String
  primitive? : Option Primitive
  ancestors : List TypeId
  methods : List Method
  properties : List Property
  constructors : List Constructor
  indexer? : Option Indexer

namespace TypeDraft

/-- A type without members, by its dotted name. -/
def named (fullName : String) : TypeDraft := ⟨fullName, none, [], [], [], [], none⟩

/-- Describes the values of a kind. -/
def describing (d : TypeDraft) (kind : Primitive) : TypeDraft := { d with primitive? := some kind }

/-- Declares a supertype, whose own supertypes are supertypes as well. -/
def supertype (d : TypeDraft) (parent : TypeInfo) : TypeDraft :=
  { d with ancestors := d.ancestors ++ parent.id :: parent.ancestors }

/-- Adds a method. -/
def method (d : TypeDraft) (m : Method) : TypeDraft := { d with methods := d.methods ++ [m] }

/-- Adds a property. -/
def property (d : TypeDraft) (p : Property) : TypeDraft :=
  { d with properties := d.properties ++ [p] }

/-- Adds a constructor. -/
def constructor (d : TypeDraft) (c : Constructor) : TypeDraft :=
  { d with constructors := d.constructors ++ [c] }

/-- Sets the indexer. -/
def indexer (d : TypeDraft) (i : Indexer) : TypeDraft := { d with indexer? := some i }

end TypeDraft

/-- The types that have been described, each at the place its identity names. -/
structure Registry where
  types : Array HostType

namespace Registry

/-- Adds a type and gives it the next identity. -/
def register (r : Registry) (d : TypeDraft) : TypeInfo × Registry :=
  let info : TypeInfo := ⟨⟨r.types.size⟩, d.fullName, d.primitive?, d.ancestors⟩
  (info, ⟨r.types.push ⟨info, d.methods, d.properties, d.constructors, d.indexer?⟩⟩)

/-- Adds types in order. -/
def registerAll (r : Registry) (ds : List TypeDraft) : List TypeInfo × Registry :=
  ds.foldl (fun (infos, r) d =>
    let (info, r) := r.register d
    (infos ++ [info], r)) ([], r)

/-- The description of a type; one without members if it has not been registered. -/
def type (r : Registry) (info : TypeInfo) : HostType :=
  r.types[info.id.index]?.getD ⟨info, [], [], [], none⟩

end Registry

/-! ## The type of types -/

/-- The members of type handles. -/
def metaDraft : TypeDraft :=
  let onHandle (f : TypeInfo → Reply) : Value → Effect
    | .type info => .pure (f info)
    | _ => .refuse "expected a type handle"
  let text (f : TypeInfo → String) : Value → Effect := onHandle fun info => .value (.text (f info))
  (TypeDraft.named "System.Type")
    |>.property (.onValue "Name" (text (·.name)))
    |>.property (.onValue "FullName" (text (·.fullName)))
    |>.method (.onValue "IsAssignableFrom" [.ofType .typeOf] fun receiver args =>
        onHandle (fun this =>
          match args with
          | .type other :: _ => .value (.bool (other.isSubtypeOf this.id))
          | _ => .refuse "IsAssignableFrom expects a type") receiver)
    |>.method (.onValue "ToString" [] fun receiver _ => text (·.fullName) receiver)

/-- The registry of a host that has described nothing: only the type of types. -/
def Registry.initial : Registry := ((⟨#[]⟩ : Registry).register metaDraft).2

/-- What values know of the type of types. -/
def metaInfo : TypeInfo := ((⟨#[]⟩ : Registry).register metaDraft).1

end HostScript
