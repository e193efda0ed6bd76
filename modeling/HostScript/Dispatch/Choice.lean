import HostScript.Host.Type
import HostScript.Store

/-!
# Dispatch/Choice — what an operation means for its arguments

A member is found by its written name: first with its first letter in upper case, then as it is
written, then without regard to the case of ASCII letters.  Among members of one name the first one
that takes the arguments counts.  A name that is called and bound nowhere is looked for among the
methods of the injected instances.

`choose` reads the values only through what their shapes tell: which kind they are of and, for
objects and type handles, which type.
-/

namespace HostScript

/-- What a host offers: the types it has described, those that describe values without a type of
their own, in order, and the instances whose methods can be called by name, in order. -/
structure Surface where
  registry : Registry
  bound : List TypeInfo
  instances : List HostObject

/-- What a host offers to the scripts of a runtime. -/
def Runtime.surface (runtime : Runtime) (registry : Registry) : Surface :=
  ⟨registry, runtime.bound, runtime.instances⟩

/-! ## Names -/

/-- The ways in which a member can have a written name, the best first. -/
inductive Spelling where
  /-- The written name with its first letter in upper case. -/
  | capitalized
  | exact
  /-- The written name up to the case of ASCII letters. -/
  | anyCase
  deriving DecidableEq, Repr

namespace Spelling

/-- The spellings, the best first. -/
def all : List Spelling := [capitalized, exact, anyCase]

/-- The best way in which a name is a written one. -/
def of? (name written : String) : Option Spelling :=
  if name = Text.capitalized written then some capitalized
  else if name = written then some exact
  else if Text.fold name = Text.fold written then some anyCase
  else none

end Spelling

/-- The members that have a written name, with their places: the best spelling first, and in order
within one spelling. -/
def membersNamed {α : Type} (nameOf : α → String) (members : List α) (written : String) :
    List (α × Nat) :=
  Spelling.all.flatMap fun spelling =>
    members.zipIdx.filter fun m => Spelling.of? (nameOf m.1) written = some spelling

namespace Surface

/-! ## Members -/

/-- The types whose members a value has, in order, and what these members receive.  A type handle has
the static members of its type and then, as a receiver, those of the type of types. -/
def memberSources (offer : Surface) (target : Value) : List (TypeInfo × Receiver) :=
  match target with
  | .object o => [(o.type, .target)]
  | .type info => [(info, .static), (metaInfo, .target)]
  | v =>
    match v.primitive? with
    | some kind => (offer.bound.filter (·.primitive? = some kind)).map fun info => (info, .target)
    | none => []

/-- The first property of a written name, if a source has one. -/
def property? (offer : Surface) (written : String) (source : TypeInfo × Receiver) :
    Option (Property × Nat) :=
  (membersNamed Property.name (offer.registry.type source.1).properties written).find? fun p =>
    p.1.isStatic == (source.2 == .static)

/-- The methods of a written name that a source has. -/
def methodsNamed (offer : Surface) (written : String) (source : TypeInfo × Receiver) :
    List (Method × Nat) :=
  (membersNamed Method.name (offer.registry.type source.1).methods written).filter fun m =>
    m.1.isStatic == (source.2 == .static)

/-- What is found in the first source that has it, together with the source. -/
def findInSources {α : Type} (find : TypeInfo × Receiver → Option α) :
    List (TypeInfo × Receiver) → Option ((TypeInfo × Receiver) × α)
  | [] => none
  | source :: rest =>
    match find source with
    | some found => some (source, found)
    | none => findInSources find rest

/-- Reading a member. -/
def getMember (offer : Surface) (written : String) (target : Value) : Action :=
  match target with
  | .space _ => .namespaceGet
  | v =>
    match findInSources (offer.property? written) (offer.memberSources v) with
    | some ((type, receiver), _, index) => .getProperty type index receiver
    | none => .fail (.missingMember written v.typeName)

/-- Assigning a member. -/
def setMember (offer : Surface) (written : String) (target : Value) : Action :=
  match target with
  | .space _ => .namespaceSet
  | v =>
    match findInSources (offer.property? written) (offer.memberSources v) with
    | some ((type, receiver), property, index) =>
      if property.set?.isNone || receiver = .static then
        .fail (.readOnlyMember property.name type.name)
      else .setProperty type index
    | none => .fail (.missingMember written v.typeName)

/-- Calling a member. -/
def invokeMember (offer : Surface) (written : String) (target : Value) (args : List Value) :
    Action :=
  match target with
  | .space _ => .namespaceInvoke
  | v =>
    let sources := offer.memberSources v
    let taking (source : TypeInfo × Receiver) :=
      (offer.methodsNamed written source).find? fun m => Params.accept m.1.params args
    match findInSources taking sources with
    | some ((type, receiver), _, index) => .invokeMethod type index receiver
    | none =>
      if sources.all fun source => (offer.methodsNamed written source).isEmpty then
        .fail (.missingMember written v.typeName)
      else .fail (.noMatchingOverload written v.typeName args.length)

/-- Creating an instance. -/
def createInstance (offer : Surface) (target : Value) (args : List Value) : Action :=
  match target with
  | .type info =>
    match (offer.registry.type info).constructors.findIdx? fun c => Params.accept c.params args with
    | some index => .construct info index
    | none => .fail (.noMatchingConstructor info.name args.length)
  | v => .fail (.notAType v.typeName)

/-! ## Indexes -/

/-- The type whose indexer a value has. -/
def indexerType? (offer : Surface) (target : Value) : Option TypeInfo :=
  let indexed (info : TypeInfo) := (offer.registry.type info).indexer?.isSome
  match target with
  | .object o => if indexed o.type then some o.type else none
  | v => v.primitive?.bind fun kind => offer.bound.find? fun t => t.primitive? = some kind && indexed t

/-- Reading at an index. -/
def getIndex (offer : Surface) (target : Value) (args : List Value) : Action :=
  match target, args with
  | .list _, [.int _] => .listGet
  | .text _, [.int _] => .textGet
  | .space _, [.text _] => .namespaceGetIndex
  | v, _ =>
    match offer.indexerType? v with
    | some type => .getIndexer type
    | none => .fail (.notIndexable v.typeName)

/-- Assigning at an index. -/
def setIndex (offer : Surface) (target : Value) (args : List Value) : Action :=
  match target, args with
  | .list _, [.int _, _] => .listSet
  | .space _, [.text _, _] => .namespaceSetIndex
  | v, _ =>
    match offer.indexerType? v with
    | some type => .setIndexer type
    | none => .fail (.notIndexable v.typeName)

/-! ## Names that are called -/

/-- The method of an instance that a called name means: one of the name with its first letter in
upper case or as it is written that takes the arguments after conversion, else one of the name in any
spelling whose parameters have no parts. -/
def boundMethod? (offer : Surface) (written : String) (args : List Value) (object : HostObject) :
    Option BoundMethod :=
  let methods := (offer.registry.type object.type).methods
  let called (name : String) :=
    methods.findIdx? fun m => m.name = name && Params.acceptConverted m.params args
  let folded :=
    methods.findIdx? fun m =>
      Text.fold m.name = Text.fold written && Params.acceptLoosely m.params args
  (((called (Text.capitalized written)).or (called written)).or folded).map fun index =>
    ⟨object, index⟩

/-- The method that a name means which is called and bound nowhere: one of the first injected
instance that has any. -/
def calledMethod? (offer : Surface) (written : String) (args : List Value) : Option BoundMethod :=
  offer.instances.findSome? (offer.boundMethod? written args)

/-! ## The choice -/

/-- What an operation does for arguments, the target first. -/
def choose (offer : Surface) (signature : Signature) (args : List Value) : Action :=
  let name := signature.name
  let target := args.head?.getD .null
  let rest := args.tail
  match signature.operation with
  | .getMember => offer.getMember name target
  | .setMember => offer.setMember name target
  | .lookup => .lookup
  | .invoke =>
    match target with
    | .function _ => .callValue
    | v => .fail (.notCallable v.typeName)
  | .invokeMember => offer.invokeMember name target rest
  | .call => .callNamed (offer.calledMethod? name args)
  | .getIndex => offer.getIndex target rest
  | .setIndex => offer.setIndex target rest
  | .binary =>
    match BinaryOp.ofSymbol? name, args with
    | some op, [a, b] => .binary op (.between a.shape b.shape)
    | _, _ => .fail (.host ("unknown binary operator `" ++ name ++ "`"))
  | .unary =>
    match UnaryOp.ofSymbol? name with
    | some op => .unary op
    | none => .fail (.host ("unknown unary operator `" ++ name ++ "`"))
  | .createInstance => offer.createInstance target rest

end Surface

end HostScript
