import HostScript.Value

/-!
# Host/Param — what host members take

Every parameter of a host member has a type.  An argument is accepted as it is, or after an integer
has been turned into the float that the parameter asks for.
-/

namespace HostScript

/-- The type of a parameter. -/
inductive ParamType where
  /-- Anything, null included. -/
  | any
  | bool | int | float
  /-- A character.  No script value is one. -/
  | char
  | text | list | space | function
  /-- A host type itself. -/
  | typeOf
  /-- An instance of a host type or of one of its subtypes. -/
  | host (id : TypeId)
  deriving DecidableEq, Repr

namespace ParamType

/-- The types of values that have no parts. -/
def isPrimitive : ParamType → Bool
  | bool | int | float | char => true
  | _ => false

/-- Whether a value is of a type. -/
def accepts : ParamType → Value → Bool
  | any, _ => true
  | bool, .bool _ => true
  | int, .int _ => true
  | float, .float _ => true
  | text, .text _ => true
  | list, .list _ => true
  | space, .space _ => true
  | function, .function _ => true
  | typeOf, .type _ => true
  | host id, .object o => o.type.isSubtypeOf id
  | _, _ => false

/-- Whether a value is of a type, or an integer where a float is asked for. -/
def acceptsConverted : ParamType → Value → Bool
  | float, .int _ => true
  | type, v => type.accepts v

/-- The value a member is given: an integer becomes a float where one is asked for. -/
def coerce : ParamType → Value → Value
  | float, .int i => .float i.toFloat
  | _, v => v

theorem acceptsConverted_of_accepts {type : ParamType} {v : Value} (h : type.accepts v = true) :
    type.acceptsConverted v = true := by
  unfold acceptsConverted
  split
  · rfl
  · exact h

/-- **What is accepted after conversion is accepted once converted.** -/
theorem accepts_coerce {type : ParamType} {v : Value} (h : type.acceptsConverted v = true) :
    type.accepts (type.coerce v) = true := by
  unfold acceptsConverted at h
  unfold coerce
  split at h <;> simp_all [accepts]

theorem coerce_of_accepts {type : ParamType} {v : Value} (h : type.accepts v = true) :
    type.coerce v = v := by
  unfold coerce
  split
  · cases h
  · rfl

end ParamType

/-- A parameter.  An out parameter takes no argument of a script. -/
structure Param where
  type : ParamType
  out : Bool
  deriving DecidableEq, Repr

/-- A parameter that takes arguments. -/
def Param.ofType (type : ParamType) : Param := ⟨type, false⟩

namespace Params

/-- Whether parameters accept arguments as they are. -/
def accept (params : List Param) (args : List Value) : Bool :=
  params.length == args.length && (params.zip args).all fun (p, a) => !p.out && p.type.accepts a

/-- Whether parameters accept arguments after conversion. -/
def acceptConverted (params : List Param) (args : List Value) : Bool :=
  params.length == args.length &&
    (params.zip args).all fun (p, a) => !p.out && p.type.acceptsConverted a

/-- Whether parameters without parts accept arguments after conversion. -/
def acceptLoosely (params : List Param) (args : List Value) : Bool :=
  params.length == args.length &&
    (params.zip args).all fun (p, a) =>
      !p.out && p.type.isPrimitive && p.type != .char && p.type.acceptsConverted a

/-- The arguments a member is given. -/
def coerce (params : List Param) (args : List Value) : List Value :=
  params.zipWith (fun p a => p.type.coerce a) args

end Params

end HostScript
