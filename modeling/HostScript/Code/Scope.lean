import HostScript.Code
import HostScript.Text.Case

/-!
# Code/Scope — where names live while a source is compiled

A scope is a module, the body of a function or lambda, or the body of a loop.  Modules and functions
have an activation of their own when they run; a loop keeps its variables in the activation around
it.  Names are compared without regard to the case of ASCII letters.
-/

namespace HostScript

/-- What a scope is the inside of. -/
inductive ScopeKind where
  | module
  /-- A function or lambda: what `return` leaves. -/
  | function
  /-- A loop: what `break` leaves, by its label. -/
  | loop (label : Label)
  deriving DecidableEq, Repr

/-- The names a scope declares, and what has the activation they are kept in.  A module or function
also lists the variables of its activation, and a function holds the label of its `return`s once
there is one. -/
structure Scope where
  kind : ScopeKind
  owner : Owner
  params : List (String × Nat)
  locals : List (String × Nat)
  slots : List Variable
  returnLabel? : Option Label
  deriving DecidableEq, Repr

namespace Scope

/-- Whether the scope has an activation of its own. -/
def ownsFrame (s : Scope) : Bool :=
  match s.kind with
  | .loop _ => false
  | _ => true

/-- The label of a loop's scope. -/
def loop? (s : Scope) : Option Label :=
  match s.kind with
  | .loop label => some label
  | _ => none

/-- The variable of a folded name that the scope declares. -/
def variableOf (s : Scope) (key : String) : Variable := ⟨s.owner, s.loop?, key⟩

/-- The scope of a source. -/
def module (owner : Owner) : Scope := ⟨.module, owner, [], [], [], none⟩

/-- The slots of parameters, in order; of two parameters with one name the last one counts, so it
comes first. -/
def paramSlots (names : List String) : List (String × Nat) :=
  (names.zipIdx.map fun p => (Text.fold p.1, p.2)).reverse

/-- The scope of a function or lambda. -/
def function (owner : Owner) (params : List String) : Scope :=
  ⟨.function, owner, paramSlots params, [], params.map fun p => ⟨owner, none, Text.fold p⟩, none⟩

/-- The scope of a loop inside an owner. -/
def loop (owner : Owner) (label : Label) : Scope := ⟨.loop label, owner, [], [], [], none⟩

/-- The slot of a folded name that the scope itself declares: parameters come before variables. -/
def slot? (s : Scope) (key : String) : Option Nat := (s.params.lookup key).or (s.locals.lookup key)

end Scope

/-- The scopes around a place, the innermost first. -/
abbrev Scopes := List Scope

namespace Scopes

/-- A slot seen from inside a scope: one level further in if the scope has an activation. -/
def enter (s : Scope) (slot : SlotRef) : SlotRef :=
  if s.ownsFrame then { slot with depth := slot.depth + 1 } else slot

/-- Where a folded name is declared. -/
def findKey? (key : String) : Scopes → Option SlotRef
  | [] => none
  | s :: outer =>
    match s.slot? key with
    | some index => some ⟨s.variableOf key, 0, index⟩
    | none => (findKey? key outer).map (enter s)

/-- Where a name is declared: the innermost scope that declares it counts. -/
def find? (scopes : Scopes) (name : String) : Option SlotRef := findKey? (Text.fold name) scopes

/-- A new slot of the innermost activation, for a variable. -/
def allocate (v : Variable) : Scopes → Nat × Scopes
  | [] => (0, [])
  | s :: outer =>
    if s.ownsFrame then (s.slots.length, { s with slots := s.slots ++ [v] } :: outer)
    else
      let (index, outer) := allocate v outer
      (index, s :: outer)

/-- The variable of a name in the innermost scope, made if the scope has none. -/
def declareLocal (scopes : Scopes) (name : String) : SlotRef × Scopes :=
  let key := Text.fold name
  match scopes with
  | [] => (⟨default, 0, 0⟩, [])
  | s :: _ =>
    match s.locals.lookup key with
    | some index => (⟨s.variableOf key, 0, index⟩, scopes)
    | none =>
      match allocate (s.variableOf key) scopes with
      | (index, s :: outer) =>
        (⟨s.variableOf key, 0, index⟩, { s with locals := (key, index) :: s.locals } :: outer)
      | (index, []) => (⟨s.variableOf key, 0, index⟩, [])

/-- The variable of a name in the outermost scope, made if that scope has none. -/
def declareGlobal (scopes : Scopes) (name : String) : SlotRef × Scopes :=
  match scopes with
  | [] => (⟨default, 0, 0⟩, [])
  | [s] => declareLocal [s] name
  | s :: outer =>
    let (slot, outer) := declareGlobal outer name
    (enter s slot, s :: outer)

/-- The label of the innermost loop, if no function lies in between. -/
def loopLabel? : Scopes → Option Label
  | [] => none
  | s :: _ =>
    match s.kind with
    | .loop label => some label
    | _ => none

/-- Whether a place is inside a function or lambda. -/
def inFunction (scopes : Scopes) : Bool := List.any scopes (·.kind = .function)

/-- Whether a place is in the module itself. -/
def atModule (scopes : Scopes) : Bool := (scopes.head?.map (·.kind)) = some .module

/-- The label of the innermost function, if it has one. -/
def returnLabel? (scopes : Scopes) : Option Label :=
  (List.find? (·.kind = .function) scopes).bind (·.returnLabel?)

/-- Gives the innermost function a label. -/
def setReturnLabel (label : Label) : Scopes → Scopes
  | [] => []
  | s :: outer =>
    if s.kind = .function then { s with returnLabel? := some label } :: outer
    else s :: setReturnLabel label outer

/-- What has the activation of the innermost scope. -/
def owner (scopes : Scopes) : Owner := (scopes.head?.map (·.owner)).getD default

/-- The layout of the innermost scope's activation, if it has one of its own. -/
def layout (scopes : Scopes) : Layout :=
  ⟨scopes.owner, (scopes.head?.map (·.slots)).getD []⟩

end Scopes

end HostScript
