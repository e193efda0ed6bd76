import HostScript.Dispatch.Choice

/-!
# Dispatch/Perform — doing what has been chosen

An action either answers at once, or asks for a call of a function or for another operation; it
never runs a script itself.  `Store.decide` takes the action for the arguments of an operation from
the rules of a runtime, and chooses and remembers one the first time their shapes are met.
-/

namespace HostScript

/-- How an action ends. -/
inductive Outcome where
  | reply (r : Reply)
  /-- The answer is that of another operation. -/
  | dispatch (signature : Signature) (args : List Value)
  deriving Repr, Inhabited

namespace Outcome

/-- Answers with a value. -/
def value (v : Value) : Outcome := .reply (.value v)

/-- Answers with a failure. -/
def fail (cause : EvalError.Cause) : Outcome := .reply (.fail cause)

/-- Answers with a value or a failure. -/
def ofExcept : Except EvalError.Cause Value → Outcome
  | .ok v => value v
  | .error cause => fail cause

end Outcome

/-- An answer of a host member as the end of an action. -/
def replied (answer : Reply × Store) : Outcome × Store := (.reply answer.1, answer.2)

/-- What calling a value amounts to.  Functions are given as many arguments as they take.  An instance
can be called only under a name: that of one of its methods. -/
def Outcome.ofCall (name? : Option String) (callee : Value) (args : List Value) : Outcome :=
  match callee, name? with
  | .function f, _ =>
    if f.arity = args.length then .reply (.call f args)
    else .fail (.wrongArgumentCount f.name f.arity args.length)
  | .object o, some name => .dispatch (.invokeMember name args.length) (.object o :: args)
  | v, _ => .fail (.notCallable v.typeName)

namespace Store

/-- What a name that no scope declares is bound to: in the module, else globally. -/
def named? (s : Store) (globals module : NamespaceId) (name : String) : Option Value :=
  (s.get? module name).or (s.get? globals name)

/-- The receiver that a member is given. -/
def receiverOf : Receiver → List Value → Option Value
  | .target, args => args.head?
  | .static, _ => none

/-- Calls a method of a type by its place. -/
def callMethod (s : Store) (registry : Registry) (type : TypeInfo) (index : Nat)
    (receiver : Method → Option Value) (name : String) (args : List Value) : Outcome × Store :=
  match (registry.type type).methods[index]? with
  | some m => replied (s.onHeap (m.run (receiver m) (Params.coerce m.params args)))
  | none => (.fail (.missingMember name type.name), s)

/-- Reads a list at an index. -/
def listGet (s : Store) (id : ListId) (i : Int64) : Outcome :=
  let items := s.list id
  match i.toInt.toNat?.bind fun place => items[place]? with
  | some v => .value v
  | none => .fail (.indexOutOfBounds i items.size)

/-- Changes a list at an index. -/
def listSet (s : Store) (id : ListId) (i : Int64) (v : Value) : Outcome × Store :=
  let (done, s) :=
    match i.toInt.toNat? with
    | some place => s.onHeap (·.setItem id place v)
    | none => (false, s)
  (if done then .value v else .fail (.indexOutOfBounds i (s.list id).size), s)

/-- The character of a text at an index. -/
def textGet (text : String) (i : Int64) : Outcome :=
  let cs := text.toList
  match i.toInt.toNat?.bind fun place => cs[place]? with
  | some c => .value (.text (String.singleton c))
  | none => .fail (.indexOutOfBounds i cs.length)

/-- What a namespace binds a name to. -/
def spaceGet (s : Store) (id : NamespaceId) (name : String) : Outcome :=
  match s.get? id name with
  | some v => .value v
  | none => .fail (.missingMember name "namespace")

/-- Does what has been chosen for the arguments of an operation, in a module and under the global
names of a runtime. -/
def perform (s : Store) (registry : Registry) (globals module : NamespaceId) (action : Action)
    (signature : Signature) (args : List Value) : Outcome × Store :=
  let name := signature.name
  match action, args with
  | .fail cause, _ => (.fail cause, s)
  | .namespaceGet, .space id :: _ => (s.spaceGet id name, s)
  | .namespaceSet, [.space id, v] => (.value v, s.bind id name v)
  | .namespaceInvoke, .space id :: rest =>
    match s.get? id name with
    | some callee => (.ofCall (some name) callee rest, s)
    | none => (.fail (.missingMember name "namespace"), s)
  | .lookup, _ =>
    match s.named? globals module name with
    | some v => (.value v, s)
    | none => (.fail (.missingMember name "module"), s)
  | .callNamed fallback, args =>
    match s.named? globals module name, fallback with
    | some callee, _ => (.ofCall (some name) callee args, s)
    | none, some bound =>
      s.callMethod registry bound.holder.type bound.index
        (fun m => if m.isStatic then none else some (.object bound.holder)) name args
    | none, none => (.fail (.missingMember name "module"), s)
  | .callValue, callee :: rest => (.ofCall none callee rest, s)
  | .getProperty type index receiver, args =>
    match (registry.type type).properties[index]? with
    | some p => replied (s.onHeap (p.get (receiverOf receiver args)))
    | none => (.fail (.missingMember name type.name), s)
  | .setProperty type index, [target, v] =>
    match (registry.type type).properties[index]? with
    | some p =>
      match p.set? with
      | some set =>
        match s.onHeap (set (some target) v) with
        | (.ok (), s) => (.value v, s)
        | (.error cause, s) => (.fail cause, s)
      | none => (.fail (.readOnlyMember p.name type.name), s)
    | none => (.fail (.missingMember name type.name), s)
  | .invokeMethod type index receiver, args =>
    s.callMethod registry type index (fun _ => receiverOf receiver args) name args.tail
  | .construct type index, args =>
    match (registry.type type).constructors[index]? with
    | some c => replied (s.onHeap (c.run type (Params.coerce c.params args.tail)))
    | none => (.fail (.noMatchingConstructor type.name args.tail.length), s)
  | .getIndexer type, [target, index] =>
    match (registry.type type).indexer? with
    | some indexer => replied (s.onHeap (indexer.get target index))
    | none => (.fail (.notIndexable type.name), s)
  | .setIndexer type, [target, index, v] =>
    match (registry.type type).indexer? with
    | some indexer =>
      match indexer.set? with
      | some set => replied (s.onHeap (set target index v))
      | none => (.fail (.readOnlyMember "[]" type.name), s)
    | none => (.fail (.notIndexable type.name), s)
  | .listGet, [.list id, .int i] => (s.listGet id i, s)
  | .listSet, [.list id, .int i, v] => s.listSet id i v
  | .textGet, [.text t, .int i] => (textGet t i, s)
  | .namespaceGetIndex, [.space id, .text key] => (s.spaceGet id key, s)
  | .namespaceSetIndex, [.space id, .text key, v] => (.value v, s.bind id key v)
  | .binary op conversion, [a, b] =>
    let (a, b) := conversion.apply a b
    (.ofExcept (op.evaluate a b), s)
  | .unary op, [v] => (.ofExcept (op.evaluate v), s)
  | _, _ => (.fail (.host ("`" ++ signature.text ++ "` does not apply to its arguments")), s)

/-- The action for the arguments of an operation: what has been decided for their shapes in a
runtime, else what is chosen now, which is remembered. -/
def decide (s : Store) (registry : Registry) (rt : RuntimeId) (signature : Signature)
    (args : List Value) : Action × Store :=
  let runtime := s.runtime rt
  let guard := args.map Value.shape
  match runtime.rules.find? signature guard with
  | some action => (action, s)
  | none =>
    let action := (runtime.surface registry).choose signature args
    (action, s.changeRules rt fun rules => (rules.request signature).add signature ⟨guard, action⟩)

/-- A dynamic operation in a module of a runtime. -/
def dispatch (s : Store) (registry : Registry) (rt : RuntimeId) (module : NamespaceId)
    (signature : Signature) (args : List Value) : Outcome × Store :=
  let (action, s) := s.decide registry rt signature args
  s.perform registry (s.runtime rt).globals module action signature args

end Store

end HostScript
