import HostScript.Proofs.Compile.Accepts
import HostScript.Proofs.Compile.Derivations
import HostScript.Proofs.Syntax.Beside

/-!
# Proofs/Compile/Bare — what compiling makes of spans

The spans of a tree are only asked for positions.  A tree without its spans is therefore compiled to the code
without its positions (`Compile.Compiles.bare`), whatever has been requested before, and trees that differ in
their spans at most are compiled to codes that differ in their positions at most: `SameTrees.unplaced`.
Neither is a program when the other is not (`SameTree.compile`).
-/

namespace HostScript

/-- The position of what has none. -/
def Position.nowhere : Position := ⟨0, 0⟩

/-- Every span is nowhere. -/
def Compile.nowhere : Compile.Places := fun _ => .nowhere

namespace Code

mutual

/-- A code without its positions. -/
def unplaced : Code → Code
  | null => .null
  | constant value => .constant value
  | thisModule => .thisModule
  | read slot => .read slot
  | write slot value => .write slot (unplaced value)
  | dispatch _ s operands => .dispatch .nowhere s (unplacedAll operands)
  | closure ⟨name, arity, layout, returnLabel?, body⟩ =>
    .closure ⟨name, arity, layout, returnLabel?, unplaced body⟩
  | choose branches otherwise => .choose (unplacedArms branches) (unplaced otherwise)
  | loop label body => .loop label (unplaced body)
  | leave label value => .leave label (unplaced value)
  | give label value => .give label (unplaced value)
  | sequence codes => .sequence (unplacedAll codes)
  | importAs _ path name => .importAs .nowhere path name

/-- Codes without their positions. -/
def unplacedAll : List Code → List Code
  | [] => []
  | code :: rest => unplaced code :: unplacedAll rest

/-- Tests and bodies without their positions. -/
def unplacedArms : List (Code × Code) → List (Code × Code)
  | [] => []
  | (test, body) :: rest => (unplaced test, unplaced body) :: unplacedArms rest

end

theorem length_unplacedAll (codes : List Code) : (unplacedAll codes).length = codes.length := by
  induction codes with
  | nil => rfl
  | cons _ _ ih => exact congrArg (· + 1) ih

theorem unplaced_inOrder (codes : List Code) :
    (Compile.inOrder codes).unplaced = Compile.inOrder (unplacedAll codes) := by
  match codes with
  | [] | [_] | _ :: _ :: _ => rfl

end Code

namespace Node

theorem length_bareAll (trees : List Node) : (bareAll trees).length = trees.length := by
  induction trees with
  | nil => rfl
  | cons _ _ ih => exact congrArg (· + 1) ih

theorem operation?_bare {tree : Node} {s : Signature} {trees : List Node}
    (h : tree.operation? = some (s, trees)) : tree.bare.operation? = some (s, bareAll trees) := by
  cases tree with
  | member | index | binary | unary =>
    cases h
    rfl
  | assign _ target value =>
    cases target with
    | member | index =>
      cases h
      rfl
    | _ => cases h
  | call _ callee args =>
    cases callee with
    | named => cases h
    | declare _ _ init | leave _ init | give _ init =>
      cases h
      cases init <;> exact congrArg (fun n => some (Signature.invoke n, _)) (length_bareAll args)
    | choose _ _ otherwise =>
      cases h
      cases otherwise <;> exact congrArg (fun n => some (Signature.invoke n, _)) (length_bareAll args)
    | member _ _ name _ =>
      cases h
      exact congrArg (fun n => some (Signature.invokeMember name n, _)) (length_bareAll args)
    | _ =>
      cases h
      exact congrArg (fun n => some (Signature.invoke n, _)) (length_bareAll args)
  | _ => cases h

/-! ### Constructs -/

/-- A construct without its spans. -/
def bareConstruct (c : List Body × Node) : List Body × Node := (c.1, c.2.bare)

mutual

/-- The constructs of a tree without its spans. -/
theorem constructs_bare : ∀ (tree : Node) (around : List Body),
    tree.bare.constructs around = (tree.constructs around).map bareConstruct
  | .literal _ _, _ | .named _ _, _ | .declare _ _ none, _ | .leave _ none, _ | .give _ none, _
  | .importFrom _ _ _, _ | .empty _, _ => rfl
  | .member _ part _ _, around | .unary _ _ part, around | .declare _ _ (some part), around
  | .leave _ (some part), around | .give _ (some part), around | .plain _ part, around =>
    congrArg _ (constructs_bare part around)
  | .function _ _ _ body, around | .lambda _ _ body, around =>
    congrArg _ (constructs_bare body (.function :: around))
  | .loop _ body, around => congrArg _ (constructs_bare body (.loop :: around))
  | .index _ first second, around | .binary _ _ first second, around | .assign _ first second, around => by
    rw [bare, constructs, constructs, List.map_cons, List.map_append, constructs_bare first,
      constructs_bare second]
    rfl
  | .call _ first args, around | .create _ first args, around => by
    rw [bare, constructs, constructs, List.map_cons, List.map_append, constructs_bare first,
      constructsOf_bare args]
    rfl
  | .choose _ branches none, around => congrArg _ (constructsOfArms_bare branches around)
  | .choose _ branches (some body), around => by
    rw [bare, constructs, constructs, List.map_cons, List.map_append, constructsOfArms_bare branches,
      constructs_bare body]
    rfl
  | .block _ statements, around => congrArg _ (constructsOf_bare statements around)

theorem constructsOf_bare : ∀ (trees : List Node) (around : List Body),
    constructsOf around (bareAll trees) = (constructsOf around trees).map bareConstruct
  | [], _ => rfl
  | first :: rest, around => by
    rw [bareAll, constructsOf, constructsOf, List.map_append, constructs_bare first, constructsOf_bare rest]

theorem constructsOfArms_bare : ∀ (branches : List (Node × Node)) (around : List Body),
    constructsOfArms around (bareBranches branches) = (constructsOfArms around branches).map bareConstruct
  | [], _ => rfl
  | (test, body) :: rest, around => by
    rw [bareBranches, constructsOfArms, constructsOfArms, List.map_append, List.map_append,
      constructs_bare test, constructs_bare body, constructsOfArms_bare rest]

end

theorem isAssignable_bare (tree : Node) : tree.bare.isAssignable = tree.isAssignable := by
  cases tree with
  | declare _ _ init | leave _ init | give _ init | choose _ _ init => cases init <;> rfl
  | _ => rfl

/-- Where a construct may stand does not depend on its spans. -/
theorem wellPlaced_bare (tree : Node) (around : List Body) :
    tree.bare.WellPlaced around ↔ tree.WellPlaced around := by
  cases tree with
  | assign _ target _ => exact Eq.congr_left (isAssignable_bare target)
  | declare _ _ init | leave _ init | give _ init | choose _ _ init => cases init <;> exact Iff.rfl
  | _ => exact Iff.rfl

theorem wellPlaced_map_bare (constructs : List (List Body × Node)) :
    (∀ c ∈ constructs.map bareConstruct, c.2.WellPlaced c.1) ↔ ∀ c ∈ constructs, c.2.WellPlaced c.1 := by
  rw [List.forall_mem_map]
  exact forall₂_congr fun c _ => wellPlaced_bare c.2 c.1

end Node

open Node (bareAll bareBranches)
open Code (unplacedAll unplacedArms)

namespace Compile

/-- Work without spans and positions. -/
def Work.bare : Work → Work
  | one tree code => .one tree.bare code.unplaced
  | all trees codes => .all (bareAll trees) (unplacedAll codes)
  | arms branches codes => .arms (bareBranches branches) (unplacedArms codes)

/-- A workspace in which other signatures have been requested. -/
def Workspace.asking (w : Workspace) (requests : List Signature) : Workspace := { w with requests }

variable {places : Places} {w w' : Workspace}

theorem Yields.returnLabel_asking {label : Label} (h : Yields Compile.returnLabel w label w')
    (requests : List Signature) :
    Yields Compile.returnLabel (w.asking requests) label (w'.asking requests) := by
  obtain ⟨scopes, rest, found, h⟩ := h.bind
  obtain ⟨rfl, rfl⟩ := found.scopes
  refine .of_scopes ?_
  split at h
  next own there =>
    obtain ⟨rfl, rfl⟩ := h.pure
    rw [show (w'.asking requests).scopes.returnLabel? = some label from there]
    rfl
  next none =>
    rw [show (w.asking requests).scopes.returnLabel? = Option.none from none]
    cases h
    rfl

/-- **A tree without its spans is compiled to the code without its positions**, whatever has been requested:
by induction on how the tree is compiled, with the same rule for each construct. -/
theorem Compiles.bare {work : Work} (h : Compiles places w work w') (requests : List Signature) :
    ∃ more, Compiles nowhere (w.asking requests) work.bare (w'.asking more) := by
  induction h generalizing requests with
  | nil => exact ⟨requests, .nil⟩
  | cons _ _ first rest =>
    obtain ⟨between, first⟩ := first requests
    obtain ⟨more, rest⟩ := rest between
    exact ⟨more, .cons first rest⟩
  | noArms => exact ⟨requests, .noArms⟩
  | arm _ _ _ test body rest =>
    obtain ⟨between, test⟩ := test requests
    obtain ⟨after, body⟩ := body between
    obtain ⟨more, rest⟩ := rest after
    exact ⟨more, .arm test body rest⟩
  | literal => exact ⟨requests, .literal⟩
  | empty => exact ⟨requests, .empty⟩
  | plain _ inner => exact (inner requests).imp fun _ inner => .plain inner
  | @block _ _ _ _ codes _ inner =>
    obtain ⟨more, inner⟩ := inner requests
    refine ⟨more, ?_⟩
    rw [Work.bare, Code.unplaced_inOrder]
    exact .block inner
  | @operation _ _ tree s trees codes is_operation _ operands =>
    obtain ⟨more, operands⟩ := operands requests
    exact ⟨s :: more, .operation (Node.operation?_bare is_operation) operands⟩
  | @create w _ _ target args codes _ operands =>
    obtain ⟨more, operands⟩ := operands (.createInstance args.length :: requests)
    rw [← Node.length_bareAll args] at operands
    have made : Compiles nowhere (w.asking requests) (.one (.create .none target.bare (bareAll args)) _) _ :=
      .create operands
    rw [Node.length_bareAll] at made
    exact ⟨more, made⟩
  | read known => exact ⟨requests, .read known⟩
  | @lookup _ _ name missing => exact ⟨.lookup name :: requests, .lookup missing⟩
  | @invoke w _ _ _ name slot _ codes known _ operands =>
    obtain ⟨more, operands⟩ := operands requests
    have known : (w.asking requests).scopes.find? name = some slot := known
    have made : Compiles nowhere _ (.one (.call .none (.named .none name) _) _) _ := .invoke known operands
    rw [Code.length_unplacedAll] at made
    exact ⟨.invoke codes.length :: more, made⟩
  | @call w _ _ _ name _ codes missing _ operands =>
    obtain ⟨more, operands⟩ := operands requests
    have missing : (w.asking requests).scopes.find? name = none := missing
    have made : Compiles nowhere _ (.one (.call .none (.named .none name) _) _) _ := .call missing operands
    rw [Code.length_unplacedAll] at made
    exact ⟨.call name codes.length :: more, made⟩
  | declare => exact ⟨requests, .declare⟩
  | @declareWith _ w₁ _ name _ _ _ value =>
    obtain ⟨more, value⟩ := value requests
    exact ⟨more, @declareWith nowhere _ (w₁.asking more) .none name _ _ value⟩
  | @assign _ w₁ _ _ name slot _ _ _ known value =>
    obtain ⟨more, value⟩ := value requests
    have known : (w₁.asking more).scopes.find? name = some slot := known
    exact ⟨more, .assign value known⟩
  | @assignNew _ w₁ _ _ name _ _ _ missing value =>
    obtain ⟨more, value⟩ := value requests
    have missing : (w₁.asking more).scopes.find? name = none := missing
    exact ⟨more, .assignNew value missing⟩
  | @function w w₁ _ name _ _ _ here _ body =>
    obtain ⟨more, body⟩ := body requests
    exact ⟨.setMember name :: more,
      @function nowhere (w.asking requests) (w₁.asking more) .none name _ _ _ here body⟩
  | lambda labelled _ body =>
    obtain ⟨more, body⟩ := body requests
    exact ⟨more, .lambda (labelled.returnLabel_asking requests) body⟩
  | @loop w w₁ _ _ _ _ body =>
    obtain ⟨more, body⟩ := body requests
    exact ⟨more, @loop nowhere (w.asking requests) (w₁.asking more) .none _ _ body⟩
  | choose _ arms => exact (arms requests).imp fun _ arms => .choose arms
  | chooseElse _ _ arms body =>
    obtain ⟨between, arms⟩ := arms requests
    obtain ⟨more, body⟩ := body between
    exact ⟨more, .chooseElse arms body⟩
  | leave inside => exact ⟨requests, .leave inside⟩
  | leaveWith inside _ value => exact (value requests).imp fun _ value => .leaveWith inside value
  | give inside labelled => exact ⟨requests, .give inside (labelled.returnLabel_asking requests)⟩
  | giveBack inside labelled _ value =>
    obtain ⟨more, value⟩ := value requests
    exact ⟨more, .giveBack inside (labelled.returnLabel_asking requests) value⟩
  | importFrom here => exact ⟨requests, .importFrom here⟩

/-! ## Trees that differ in their spans at most -/

/-- A step yields one result. -/
theorem Yields.unique {α : Type} {step : Step α} {a b : α} {v : Workspace} (h : Yields step w a w')
    (k : Yields step w b v) : a = b ∧ w' = v := by
  obtain ⟨same, after⟩ := Prod.mk.inj (h.symm.trans k)
  exact ⟨Except.ok.inj same, after⟩

/-- **Nodes are compiled just if all their constructs stand where they may.** -/
theorem yields_nodes_iff {around : List Body} (stands : w.scopes.Stand around) (places : Places)
    (trees : List Node) : (∃ codes w', Yields (nodes places trees) w codes w') ↔
      ∀ c ∈ Node.constructsOf around trees, c.2.WellPlaced c.1 := by
  rw [← Node.firstFault?_eq_none_iff]
  have settles := settles_nodes places trees around w stands
  cases found : Node.firstFault? (Node.constructsOf around trees) with
  | none =>
    rw [found] at settles
    obtain ⟨codes, w', ran, -⟩ := settles
    exact iff_of_true ⟨codes, w', ran⟩ rfl
  | some fault =>
    rw [found] at settles
    obtain ⟨w', failed⟩ := settles
    refine iff_of_false ?_ (Option.some_ne_none _)
    rintro ⟨codes, w', ran⟩
    cases congrArg Prod.fst (ran.symm.trans failed)

/-- A node is compiled just if all its constructs stand where they may. -/
theorem yields_node_iff {around : List Body} (stands : w.scopes.Stand around) (places : Places)
    (tree : Node) : (∃ code w', Yields (node places tree) w code w') ↔
      ∀ c ∈ tree.constructs around, c.2.WellPlaced c.1 := by
  have all := yields_nodes_iff stands places [tree]
  rw [Node.constructsOf, Node.constructsOf, List.append_nil] at all
  rw [← all]
  constructor
  · rintro ⟨code, w', made⟩
    exact ⟨[code], w', made.of_cons (.of_nil w')⟩
  · rintro ⟨codes, w', made⟩
    obtain ⟨code, between, -, one, -⟩ := made.cons
    exact ⟨code, between, one⟩

end Compile

open Compile

section

variable {places places' : Places} {w w' v v' : Workspace}

/-- **Trees that differ in their spans at most are compiled to codes that differ in their positions at
most**, whatever has been requested. -/
theorem SameTrees.unplaced {as bs : List Node} {codes codes' : List Code} (same : SameTrees as bs)
    (alike : w.asking [] = v.asking []) (first : Yields (nodes places as) w codes w')
    (second : Yields (nodes places' bs) v codes' v') :
    unplacedAll codes = unplacedAll codes' ∧ w'.asking [] = v'.asking [] := by
  have trees : bareAll as = bareAll bs := same
  obtain ⟨more, left⟩ := (derives_nodes places as first).bare []
  obtain ⟨more', right⟩ := (derives_nodes places' bs second).bare []
  have left : Yields (nodes nowhere (bareAll as)) (w.asking []) _ (w'.asking more) := left.yields
  have right : Yields (nodes nowhere (bareAll bs)) (v.asking []) _ (v'.asking more') := right.yields
  rw [trees, alike] at left
  obtain ⟨codes, after⟩ := left.unique right
  refine ⟨codes, ?_⟩
  show (w'.asking more).asking [] = (v'.asking more').asking []
  rw [after]

/-- Where the constructs of trees may stand does not depend on spans. -/
theorem SameTrees.wellPlaced {as bs : List Node} (same : SameTrees as bs) (around : List Body) :
    (∀ c ∈ Node.constructsOf around as, c.2.WellPlaced c.1) ↔
      ∀ c ∈ Node.constructsOf around bs, c.2.WellPlaced c.1 := by
  have trees : bareAll as = bareAll bs := same
  rw [← Node.wellPlaced_map_bare, ← Node.constructsOf_bare, trees, Node.constructsOf_bare,
    Node.wellPlaced_map_bare]

/-- Such trees are compiled together. -/
theorem SameTrees.yields {as bs : List Node} {codes : List Code} {around : List Body}
    (same : SameTrees as bs) (alike : w.asking [] = v.asking []) (stands : w.scopes.Stand around)
    (h : Yields (nodes places as) w codes w') (places' : Places) :
    ∃ codes' v', Yields (nodes places' bs) v codes' v' ∧ unplacedAll codes = unplacedAll codes' ∧
      w'.asking [] = v'.asking [] := by
  have scopes : w.scopes = v.scopes := by
    show (w.asking []).scopes = (v.asking []).scopes
    rw [alike]
  have placed := (same.wellPlaced around).1 ((yields_nodes_iff stands places as).1 ⟨codes, w', h⟩)
  obtain ⟨codes', v', k⟩ := (yields_nodes_iff (scopes ▸ stands) places' bs).2 placed
  exact ⟨codes', v', k, same.unplaced alike h k⟩

/-- **Sources whose trees differ in their spans at most** are programs together, and their programs differ
in positions at most. -/
theorem SameTree.compile {a b : Node} (same : SameTree a b) {number : Nat} {source : List Char}
    {program : Program} (compiled : (compile number source a).1 = .ok program) (other : List Char) :
    ∃ program', (HostScript.compile number other b).1 = .ok program' ∧ program'.layout = program.layout ∧
      program.code.unplaced = program'.code.unplaced := by
  obtain ⟨w, made, layout, -⟩ := yields_compile compiled
  have all : SameTrees [a] [b] := same.cons rfl
  have stands : Scopes.Stand [.module ⟨number, 0⟩] [] := rfl
  obtain ⟨codes, v, made', codes_same, after⟩ :=
    all.yields rfl stands (made.of_cons (.of_nil w)) fun span => (LineIndex.ofSource other).position span.start
  obtain ⟨code, between, rest, one, others, rfl⟩ := made'.cons
  obtain ⟨rfl, rfl⟩ := others.nil
  refine ⟨⟨code, v.scopes.layout⟩, ?_, ?_, (List.cons.inj codes_same).1⟩
  · unfold HostScript.compile
    dsimp only
    rw [one]
    rfl
  · rw [layout]
    show (v.asking []).scopes.layout = (w.asking []).scopes.layout
    rw [after]

end

end HostScript
