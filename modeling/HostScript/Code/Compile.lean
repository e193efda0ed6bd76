import HostScript.Code.Scope
import HostScript.Source.LineIndex
import HostScript.Syntax

/-!
# Code/Compile — from trees to code

Compiling resolves the names that scopes declare and checks that jumps, definitions, imports and
assignments stand where they may.  Each node is checked before its parts, and parts are compiled in
the order in which they run.

Every dynamic operation requests its signature, in the order of compilation; the requests of a source
that turns out to be invalid stay.
-/

namespace HostScript

/-- Why a tree is no program. -/
inductive CompileError.Cause where
  | returnOutsideFunction
  | breakOutsideLoop
  /-- A function that is not defined in a module itself. -/
  | nestedFunction (name : String)
  | notAssignable
  | importOutsideModule
  deriving DecidableEq, Repr

/-- The message of a cause. -/
def CompileError.Cause.message : CompileError.Cause → String
  | .returnOutsideFunction => "`return` outside of a function"
  | .breakOutsideLoop => "`break` outside of a loop"
  | .nestedFunction name => "function `" ++ name ++ "` must be defined at module level"
  | .notAssignable => "invalid assignment target"
  | .importOutsideModule => "`import` is only allowed at module level"

/-- A construct that stands where it may not. -/
structure CompileError where
  cause : CompileError.Cause
  position : Position
  span : Span
  deriving DecidableEq, Repr

/-- The message of an error, with its position. -/
def CompileError.message (e : CompileError) : String :=
  e.cause.message ++ " at " ++ e.position.text

namespace Compile

/-- What compiling a source keeps: the number of labels in use, the owner that the next function or
lambda is, the signatures requested so far, last first, and the scopes around the place being
compiled. -/
structure Workspace where
  labels : Nat
  next : Owner
  requests : List Signature
  scopes : Scopes

/-- A step of compilation.  What it has requested stays also when it fails. -/
abbrev Step := ExceptT CompileError (StateM Workspace)

/-- Where spans of the source start. -/
abbrev Places := Span → Position

/-- Fails at a node. -/
def refuse {α : Type} (places : Places) (cause : CompileError.Cause) (span : Span) : Step α :=
  throw ⟨cause, places span, span⟩

/-- A label that is not in use. -/
def freshLabel : Step Label :=
  modifyGet fun w => (⟨w.labels⟩, { w with labels := w.labels + 1 })

/-- An owner that no other function or lambda is. -/
def freshOwner : Step Owner :=
  modifyGet fun w => (w.next, { w with next := { w.next with number := w.next.number + 1 } })

/-- Requests the rule of a signature. -/
def request (s : Signature) : Step Unit :=
  modify fun w => { w with requests := s :: w.requests }

/-- The scopes around the place being compiled. -/
def scopes : Step Scopes := return (← get).scopes

/-- Changes the scopes. -/
def changeScopes {α : Type} (f : Scopes → α × Scopes) : Step α :=
  modifyGet fun w =>
    let (result, scopes) := f w.scopes
    (result, { w with scopes })

/-- Goes into a scope. -/
def push (s : Scope) : Step Unit := changeScopes fun scopes => ((), s :: scopes)

/-- Goes out of the innermost scope. -/
def pop : Step Unit := changeScopes fun scopes => ((), scopes.drop 1)

/-- A dynamic operation on operands. -/
def operation (position : Position) (s : Signature) (operands : List Code) : Step Code := do
  request s
  return .dispatch position s operands

/-- Codes in order; none yield null. -/
def inOrder : List Code → Code
  | [] => .null
  | [code] => code
  | codes => .sequence codes

/-- The label of the innermost function, made if it has none. -/
def returnLabel : Step Label := do
  match (← scopes).returnLabel? with
  | some label => return label
  | none =>
    let label ← freshLabel
    changeScopes fun scopes => ((), scopes.setReturnLabel label)
    return label

/-- What a function is made of, once its body has been compiled in the innermost scope, which is
left. -/
def template (name : String) (params : List String) (body : Code) : Step (Template Code) := do
  let inside ← scopes
  pop
  return ⟨name, params.length, inside.layout, inside.returnLabel?, body⟩

mutual

/-- The code of a node. -/
def node (places : Places) : Node → Step Code
  | .literal _ value => return .constant value
  | .empty _ => return .null
  | .plain _ inner => node places inner
  | .block _ statements => return inOrder (← nodes places statements)
  | .named span name => do
    match (← scopes).find? name with
    | some slot => return .read slot
    | none => operation (places span) (.lookup name) []
  | .member span target name _ => do
    let target ← node places target
    operation (places span) (.getMember name) [target]
  | .index span target index => do
    let target ← node places target
    let index ← node places index
    operation (places span) .getIndex [target, index]
  | .binary span op left right => do
    let left ← node places left
    let right ← node places right
    operation (places span) (.binary op) [left, right]
  | .unary span op operand => do
    let operand ← node places operand
    operation (places span) (.unary op) [operand]
  | .assign _ (.named _ name) value => do
    let value ← node places value
    match (← scopes).find? name with
    | some slot => return .write slot value
    | none => return .write (← changeScopes fun scopes => scopes.declareGlobal name) value
  | .assign span (.member _ object name _) value => do
    let object ← node places object
    let value ← node places value
    operation (places span) (.setMember name) [object, value]
  | .assign span (.index _ object index) value => do
    let object ← node places object
    let index ← node places index
    let value ← node places value
    operation (places span) .setIndex [object, index, value]
  | .assign _ target _ => refuse places .notAssignable target.span
  | .call span (.member _ target name _) args => do
    let target ← node places target
    let operands ← nodes places args
    operation (places span) (.invokeMember name operands.length) (target :: operands)
  | .call span (.named _ name) args => do
    match (← scopes).find? name with
    | some slot =>
      let operands ← nodes places args
      operation (places span) (.invoke operands.length) (.read slot :: operands)
    | none =>
      let operands ← nodes places args
      operation (places span) (.call name operands.length) operands
  | .call span callee args => do
    let callee ← node places callee
    let operands ← nodes places args
    operation (places span) (.invoke operands.length) (callee :: operands)
  | .create span target args => do
    let signature := Signature.createInstance args.length
    request signature
    let target ← node places target
    let operands ← nodes places args
    return .dispatch (places span) signature (target :: operands)
  | .declare _ name none => do
    let _ ← changeScopes fun scopes => scopes.declareLocal name
    return .null
  | .declare _ name (some init) => do
    let value ← node places init
    return .write (← changeScopes fun scopes => scopes.declareLocal name) value
  | .function span name params body => do
    if (← scopes).atModule then
      push (.function (← freshOwner) params)
      let body ← node places body
      let template ← template name params body
      operation (places span) (.setMember name) [.thisModule, .closure template]
    else refuse places (.nestedFunction name) span
  | .lambda _ params body => do
    push (.function (← freshOwner) params)
    let _ ← returnLabel
    let body ← node places body
    return .closure (← template "lambda" params body)
  | .choose _ branches none => return .choose (← arms places branches) (.constant (.bool false))
  | .choose _ branches (some otherwise) => do
    let branches ← arms places branches
    return .choose branches (← node places otherwise)
  | .loop _ body => do
    let label ← freshLabel
    push (.loop (← scopes).owner label)
    let body ← node places body
    pop
    return .loop label body
  | .leave span none => do
    match (← scopes).loopLabel? with
    | some label => return .leave label .null
    | none => refuse places .breakOutsideLoop span
  | .leave span (some value) => do
    match (← scopes).loopLabel? with
    | some label => return .leave label (← node places value)
    | none => refuse places .breakOutsideLoop span
  | .give span none => do
    if (← scopes).inFunction then return .give (← returnLabel) (.constant (.bool true))
    else refuse places .returnOutsideFunction span
  | .give span (some value) => do
    if (← scopes).inFunction then
      let label ← returnLabel
      return .give label (← node places value)
    else refuse places .returnOutsideFunction span
  | .importFrom span path renamed => do
    if (← scopes).atModule then
      return .importAs (places span) path ((renamed.or path.getLast?).getD "")
    else refuse places .importOutsideModule span

/-- The codes of nodes, compiled in order. -/
def nodes (places : Places) : List Node → Step (List Code)
  | [] => return []
  | first :: rest => do
    let code ← node places first
    return code :: (← nodes places rest)

/-- The codes of tests and bodies, compiled in order. -/
def arms (places : Places) : List (Node × Node) → Step (List (Code × Code))
  | [] => return []
  | (test, body) :: rest => do
    let test ← node places test
    let body ← node places body
    return (test, body) :: (← arms places rest)

end

end Compile

/-- The program of a tree read from a source, which is known by a number, and the signatures it
requests, in order; these are requested also where the tree is no program. -/
def compile (number : Nat) (source : List Char) (tree : Node) :
    Except CompileError Program × List Signature :=
  let index := LineIndex.ofSource source
  let places : Compile.Places := fun span => index.position span.start
  let (result, after) := (Compile.node places tree).run
    ⟨0, ⟨number, 1⟩, [], [.module ⟨number, 0⟩]⟩
  (result.map fun code => ⟨code, after.scopes.layout⟩, after.requests.reverse)

end HostScript
