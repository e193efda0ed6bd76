import HostScript.Dispatch.Signature
import HostScript.Source.Span

/-!
# Code — compiled scripts

Names that a scope declares have become slots, jumps have labels, and every other operation whose
meaning depends on values is a signature with the position it is written at.
-/

namespace HostScript

/-- What a jump goes to: a loop or the body of a function, numbered within its source. -/
structure Label where
  index : Nat
  deriving DecidableEq, Repr

/-- What has activations: the module of a source, which has the number 0, or one of the source's
functions and lambdas.  A source that runs is known by the place of its module's activation. -/
structure Owner where
  source : Nat
  number : Nat
  deriving DecidableEq, Repr, Inhabited

/-- A variable: a folded name as it is declared in an owner itself or in one of the owner's loops. -/
structure Variable where
  owner : Owner
  loop? : Option Label
  name : String
  deriving DecidableEq, Repr, Inhabited

/-- What an activation consists of: a slot for each of these variables, in order. -/
structure Layout where
  owner : Owner
  slots : List Variable
  deriving DecidableEq, Repr, Inhabited

/-- Where a variable is: a slot of the activation that many levels further out. -/
structure SlotRef where
  meant : Variable
  depth : Nat
  index : Nat
  deriving DecidableEq, Repr

/-- What all functions made from one definition share, over their body. -/
structure Template (β : Type) where
  name : String
  arity : Nat
  layout : Layout
  /-- What the body's `return`s go to, if it has any; a body with a label yields null at its end. -/
  returnLabel? : Option Label
  body : β
  deriving Repr

/-- Compiled code. -/
inductive Code where
  | null
  | constant (value : Literal)
  /-- The namespace of the module the code belongs to. -/
  | thisModule
  | read (slot : SlotRef)
  | write (slot : SlotRef) (value : Code)
  /-- A dynamic operation on operands, the target first. -/
  | dispatch (position : Position) (signature : Signature) (operands : List Code)
  | closure (template : Template Code)
  /-- The body of the first test that holds, else the last code. -/
  | choose (branches : List (Code × Code)) (otherwise : Code)
  | loop (label : Label) (body : Code)
  | leave (label : Label) (value : Code)
  | give (label : Label) (value : Code)
  /-- Codes in order; the value is that of the last. -/
  | sequence (codes : List Code)
  /-- Binds what a path of names leads to in the module. -/
  | importAs (position : Position) (path : List String) (name : String)
  deriving Repr, Inhabited

/-- A compiled source: its code and the layout of its module's activation. -/
structure Program where
  code : Code
  layout : Layout
  deriving Repr

end HostScript
