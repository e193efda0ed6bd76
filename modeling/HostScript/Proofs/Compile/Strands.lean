import HostScript.Proofs.Compile.Constructs
import HostScript.Proofs.Compile.Threads

/-!
# Proofs/Compile/Strands — each scope with what it does itself

A strand is what one scope does with names itself, in the order of compilation: the module, the body of
a function or lambda, or the body of a loop.  `Node.strands` takes a tree apart into the strands of its
scopes, and `Code.strands` the code that it is compiled to.  The two go together mention by mention:
`follows_node` proves of every node, by recursion over the tree with one lemma for each construct, that
each strand of the code is that of the tree threaded through the scopes around it.
-/

namespace HostScript

/-! ## Strands -/

/-- **What is done in a scope itself**, and what is done in each of the scopes inside it, which are told
apart by labels. -/
structure Strands (ι α : Type) where
  own : List α
  inner : List (ι × List α)

namespace Strands

variable {ι α : Type}

instance : EmptyCollection (Strands ι α) := ⟨⟨[], []⟩⟩

instance : Append (Strands ι α) := ⟨fun s t => ⟨s.own ++ t.own, s.inner ++ t.inner⟩⟩

/-- One thing that is done. -/
def one (a : α) : Strands ι α := ⟨[a], []⟩

/-- All strands, that of the scope itself first. -/
def all (label : ι) (s : Strands ι α) : List (ι × List α) := (label, s.own) :: s.inner

/-- What is done in a scope, seen from the scope around it. -/
def within (label : ι) (s : Strands ι α) : Strands ι α := ⟨[], s.all label⟩

@[simp] theorem append_empty (s : Strands ι α) : s ++ ∅ = s := by
  obtain ⟨own, inner⟩ := s
  exact congrArg₂ mk (List.append_nil own) (List.append_nil inner)

theorem append_assoc (s t u : Strands ι α) : s ++ t ++ u = s ++ (t ++ u) :=
  congrArg₂ mk (List.append_assoc s.own t.own u.own) (List.append_assoc s.inner t.inner u.inner)

/-- Whether all that is done in one strand is done in another, and in the scopes inside it as well. -/
def Within (s t : Strands ι α) : Prop := s.own ⊆ t.own ∧ s.inner ⊆ t.inner

theorem Within.refl (s : Strands ι α) : s.Within s := ⟨List.Subset.refl _, List.Subset.refl _⟩

theorem Within.trans {s t u : Strands ι α} (h : s.Within t) (k : t.Within u) : s.Within u :=
  ⟨List.Subset.trans h.1 k.1, List.Subset.trans h.2 k.2⟩

theorem within_left (s t : Strands ι α) : s.Within (s ++ t) :=
  ⟨List.subset_append_left _ _, List.subset_append_left _ _⟩

theorem within_right (s t : Strands ι α) : t.Within (s ++ t) :=
  ⟨List.subset_append_right _ _, List.subset_append_right _ _⟩

end Strands

mutual

/-- What each scope of a node does with names, in the order of compilation: a name is assigned and a
variable declared after the value is there, and a name is read before the operands of its call.  The
scopes inside are told apart by their parameters, of which a loop has none. -/
@[simp] def Node.strands : Node → Strands (List String) Mention
  | .literal _ _ => ∅
  | .named _ name => .one (.read name)
  | .member _ target _ _ => Node.strands target
  | .index _ target place => Node.strands target ++ Node.strands place
  | .binary _ _ left right => Node.strands left ++ Node.strands right
  | .unary _ _ operand => Node.strands operand
  | .assign _ (.named _ name) value => Node.strands value ++ .one (.assign name)
  | .assign _ target value => Node.strands target ++ Node.strands value
  | .call _ (.named _ name) args => .one (.read name) ++ Node.strandsOf args
  | .call _ callee args => Node.strands callee ++ Node.strandsOf args
  | .create _ target args => Node.strands target ++ Node.strandsOf args
  | .declare _ _ none => ∅
  | .declare _ name (some value) => Node.strands value ++ .one (.var name)
  | .function _ _ params body => (Node.strands body).within params
  | .lambda _ params body => (Node.strands body).within params
  | .choose _ branches none => Node.strandsOfArms branches
  | .choose _ branches (some otherwise) => Node.strandsOfArms branches ++ Node.strands otherwise
  | .loop _ body => (Node.strands body).within []
  | .leave _ none => ∅
  | .leave _ (some value) => Node.strands value
  | .give _ none => ∅
  | .give _ (some value) => Node.strands value
  | .importFrom _ _ _ => ∅
  | .block _ statements => Node.strandsOf statements
  | .plain _ expression => Node.strands expression
  | .empty _ => ∅

/-- What each scope of nodes does with names, in order. -/
@[simp] def Node.strandsOf : List Node → Strands (List String) Mention
  | [] => ∅
  | first :: rest => Node.strands first ++ Node.strandsOf rest

/-- What each scope of tests and bodies does with names, in order. -/
@[simp] def Node.strandsOfArms : List (Node × Node) → Strands (List String) Mention
  | [] => ∅
  | (test, body) :: rest => Node.strands test ++ (Node.strands body ++ Node.strandsOfArms rest)

end

/-- What a dynamic operation does with a name itself. -/
def Signature.strands (s : Signature) : Strands Unit Touch :=
  match s.operation with
  | .lookup => .one (.lookup s.name)
  | .call => .one (.call s.name)
  | _ => ∅

mutual

/-- What each scope of a code does with slots and names, in the order of compilation. -/
@[simp] def Code.strands : Code → Strands Unit Touch
  | .null => ∅
  | .constant _ => ∅
  | .thisModule => ∅
  | .read slot => .one (.read slot)
  | .write slot value => Code.strands value ++ .one (.write slot)
  | .dispatch _ signature operands => signature.strands ++ Code.strandsOf operands
  | .closure template => (Code.strands template.body).within ()
  | .choose branches otherwise => Code.strandsOfArms branches ++ Code.strands otherwise
  | .loop _ body => (Code.strands body).within ()
  | .leave _ value => Code.strands value
  | .give _ value => Code.strands value
  | .sequence codes => Code.strandsOf codes
  | .importAs _ _ _ => ∅

/-- What each scope of codes does with slots and names, in order. -/
@[simp] def Code.strandsOf : List Code → Strands Unit Touch
  | [] => ∅
  | code :: rest => Code.strands code ++ Code.strandsOf rest

/-- What each scope of tests and bodies does with slots and names, in order. -/
@[simp] def Code.strandsOfArms : List (Code × Code) → Strands Unit Touch
  | [] => ∅
  | (test, body) :: rest => Code.strands test ++ (Code.strands body ++ Code.strandsOfArms rest)

end

/-- A dynamic operation on nodes does nothing with a name itself. -/
theorem Node.strands_of_operation {tree : Node} {s : Signature} {trees : List Node}
    (h : tree.operation? = some (s, trees)) : tree.strands = strandsOf trees ∧ s.strands = ∅ := by
  cases tree with
  | assign _ target _ =>
    cases target with
    | member | index =>
      cases h
      exact ⟨by simp [Strands.append_assoc], rfl⟩
    | _ => cases h
  | call _ callee _ =>
    cases callee with
    | named => cases h
    | _ =>
      cases h
      exact ⟨by simp, rfl⟩
  | member | index | binary | unary =>
    cases h
    exact ⟨by simp, rfl⟩
  | _ => cases h

namespace Compile

open Node (strandsOf strandsOfArms)

/-- **A strand of a tree and that of its code**: threaded through the scopes inside a scope with these
parameters, the one becomes the other. -/
def Threaded (strand : List String × List Mention) (touched : Unit × List Touch) : Prop :=
  ∃ s outer b, s.params = Scope.paramSlots strand.1 ∧ Threads (s :: outer) strand.2 touched.2 b

/-- **The strands of codes follow those of trees**, between two workspaces. -/
structure Follows (w w' : Workspace) (tree : Strands (List String) Mention)
    (code : Strands Unit Touch) : Prop where
  own : Threads w.scopes tree.own code.own w'.scopes
  inner : List.Forall₂ Threaded tree.inner code.inner

namespace Follows

variable {w w' w'' : Workspace} {tree more : Strands (List String) Mention}
  {code other : Strands Unit Touch}

/-- Nothing is done with names, and the scopes keep what they declare. -/
theorem nil (kept : w.scopes.Retain w'.scopes) : Follows w w' ∅ ∅ := ⟨.nil kept, .nil⟩

theorem refl (w : Workspace) : Follows w w ∅ ∅ := nil (Scopes.Retain.refl _)

/-- What is done one after the other. -/
theorem append (h : Follows w w' tree code) (k : Follows w' w'' more other) :
    Follows w w'' (tree ++ more) (code ++ other) :=
  ⟨h.own.append k.own, List.rel_append h.inner k.inner⟩

theorem single {m : Mention} {t : Touch} (h : m.Becomes w.scopes t w'.scopes) :
    Follows w w' (.one m) (.one t) := ⟨.single h, .nil⟩

/-- Requests do not matter. -/
theorem after (h : Follows w w' tree code) (same : w''.scopes = w'.scopes) :
    Follows w w'' tree code := ⟨same ▸ h.own, h.inner⟩

theorem before (h : Follows w' w'' tree code) (same : w'.scopes = w.scopes) :
    Follows w w'' tree code := ⟨same ▸ h.own, h.inner⟩

/-- A dynamic operation that does nothing with a name itself. -/
theorem operation {codes : List Code} (h : Follows w w' tree (Code.strandsOf codes)) {s : Signature}
    (none : s.strands = ∅) (position : Position) (requests : List Signature) :
    Follows w { w' with requests := requests } tree (Code.strands (.dispatch position s codes)) := by
  rw [Code.strands, none]
  exact h.after rfl

theorem inOrder {codes : List Code} (h : Follows w w' tree (Code.strandsOf codes)) :
    Follows w w' tree (Code.strands (inOrder codes)) := by
  cases codes with
  | nil => exact h
  | cons first rest =>
    cases rest with
    | nil =>
      rw [Code.strandsOf, Code.strandsOf, Strands.append_empty] at h
      exact h
    | cons _ _ => exact h

/-- **What is done inside a scope** of a function, lambda or loop. -/
theorem inside (h : Follows w' w'' tree code) {s : Scope} {names : List String}
    (opens : w'.scopes = s :: w.scopes) (params : s.params = Scope.paramSlots names) :
    Follows w { w'' with scopes := w''.scopes.drop 1 } (tree.within names) (code.within ()) := by
  obtain ⟨own, inner⟩ := h
  rw [opens] at own
  refine ⟨.nil ?_, .cons ⟨s, w.scopes, w''.scopes, params, own⟩ inner⟩
  cases eq : w''.scopes with
  | nil =>
    have kept := own.retain
    rw [eq] at kept
    cases kept
  | cons t rest =>
    have kept := own.retain
    rw [eq] at kept
    cases kept with
    | cons _ outer => exact outer

end Follows

/-- Giving the innermost function a label. -/
theorem follows_returnLabel {w w' : Workspace} {label : Label} (h : Yields returnLabel w label w') :
    Follows w w' ∅ ∅ := by
  rcases h.returnLabel with ⟨-, rfl⟩ | ⟨-, rfl, rfl⟩
  · exact .refl _
  · exact .nil (Scopes.retain_setReturnLabel _ _)

/-! ## Nodes -/

/-- The strands of a node's code follow those of the node. -/
def FollowsNode (places : Places) (tree : Node) : Prop :=
  ∀ ⦃w w' : Workspace⦄ ⦃code : Code⦄, Yields (node places tree) w code w' →
    Follows w w' tree.strands code.strands

/-- The strands of nodes' codes follow those of the nodes. -/
def FollowsNodes (places : Places) (trees : List Node) : Prop :=
  ∀ ⦃w w' : Workspace⦄ ⦃codes : List Code⦄, Yields (nodes places trees) w codes w' →
    Follows w w' (strandsOf trees) (Code.strandsOf codes)

/-- The strands of the codes of tests and bodies follow those of the tests and bodies. -/
def FollowsArms (places : Places) (trees : List (Node × Node)) : Prop :=
  ∀ ⦃w w' : Workspace⦄ ⦃branches : List (Code × Code)⦄, Yields (arms places trees) w branches w' →
    Follows w w' (strandsOfArms trees) (Code.strandsOfArms branches)

section

variable {places : Places} {span inner : Span} {name : String} {target value body : Node}
  {trees args : List Node} {params : List String} {branches : List (Node × Node)}
  {w w' : Workspace} {code : Code}

/-! ### Lists of nodes -/

theorem follows_nil : FollowsNodes places [] := by
  intro w w' codes h
  obtain ⟨rfl, rfl⟩ := h.nil
  exact .refl _

theorem follows_cons (one : FollowsNode places value) (rest : FollowsNodes places trees) :
    FollowsNodes places (value :: trees) := by
  intro w w' codes h
  obtain ⟨_, _, _, made, next, rfl⟩ := h.cons
  exact (one made).append (rest next)

theorem follows_noArms : FollowsArms places [] := by
  intro w w' branches h
  obtain ⟨rfl, rfl⟩ := h.noArms
  exact .refl _

theorem follows_arm (first : FollowsNode places value) (second : FollowsNode places body)
    (rest : FollowsArms places branches) : FollowsArms places ((value, body) :: branches) := by
  intro w w' codes h
  obtain ⟨_, _, _, _, _, made, next, last, rfl⟩ := h.arm
  exact (first made).append ((second next).append (rest last))

/-! ### Simple nodes and operations -/

theorem follows_literal (literal : Literal) : FollowsNode places (.literal span literal) := by
  intro w w' code h
  obtain ⟨rfl, rfl⟩ := h.literal
  exact .refl _

theorem follows_empty : FollowsNode places (.empty span) := by
  intro w w' code h
  obtain ⟨rfl, rfl⟩ := h.empty
  exact .refl _

theorem follows_plain (one : FollowsNode places value) : FollowsNode places (.plain span value) := by
  intro w w' code h
  rw [Node.strands]
  exact one h.plain

theorem follows_block (all : FollowsNodes places trees) : FollowsNode places (.block span trees) := by
  intro w w' code h
  obtain ⟨_, made, rfl⟩ := h.block
  rw [Node.strands]
  exact (all made).inOrder

theorem follows_named : FollowsNode places (.named span name) := by
  intro w w' code h
  obtain ⟨slot, known, rfl, rfl⟩ | ⟨missing, rfl, rfl⟩ := h.named
  · exact .single (.found known)
  · exact .single (.lookup missing)

/-- A dynamic operation does with names what its operands do. -/
theorem follows_operation {tree : Node} {s : Signature}
    (is_operation : tree.operation? = some (s, trees)) (all : FollowsNodes places trees) :
    FollowsNode places tree := by
  intro w w' code h
  obtain ⟨codes, between, made, rfl, rfl⟩ := h.operates is_operation
  obtain ⟨same, none⟩ := Node.strands_of_operation is_operation
  rw [same]
  exact (all made).operation none _ _

theorem follows_create (all : FollowsNodes places (target :: args)) :
    FollowsNode places (.create span target args) := by
  intro w w' code h
  obtain ⟨_, made, rfl⟩ := h.create
  rw [Node.strands]
  exact (all made).before rfl

theorem follows_callName (all : FollowsNodes places args) :
    FollowsNode places (.call span (.named inner name) args) := by
  intro w w' code h
  rw [Node.strands]
  obtain ⟨codes, between, made, ⟨slot, known, rfl, rfl⟩ | ⟨missing, rfl, rfl⟩⟩ := h.callName
  · have read : Follows w w (.one (.read name)) (.one (.read slot)) := .single (.found known)
    exact (read.append (all made)).after rfl
  · have call : Follows w w (.one (.read name)) (.one (.call name)) := .single (.call missing)
    exact (call.append (all made)).after rfl

/-! ### Variables -/

theorem follows_declare : FollowsNode places (.declare span name none) := by
  intro w w' code h
  obtain ⟨rfl, rfl⟩ := h.declare
  exact .nil (Scopes.retain_declareLocal _ name)

theorem follows_variable (one : FollowsNode places value) :
    FollowsNode places (.declare span name (some value)) := by
  intro w w' code h
  obtain ⟨_, _, made, rfl, rfl⟩ := h.initialized
  rw [Node.strands, Code.strands]
  exact (one made).append (.single .var)

theorem follows_assignName (last : FollowsNode places value) :
    FollowsNode places (.assign span (.named inner name) value) := by
  intro w w' code h
  rw [Node.strands]
  obtain ⟨_, _, made, ⟨slot, known, rfl, rfl⟩ | ⟨missing, rfl, rfl⟩⟩ := h.assignName
  · rw [Code.strands]
    exact (last made).append (.single (.assigned known))
  · rw [Code.strands]
    exact (last made).append (.single (.assigns missing))

/-- What cannot be assigned to has no code. -/
theorem follows_assignOther (never : target.isAssignable = false) :
    FollowsNode places (.assign span target value) := by
  intro w w' code h
  cases never.symm.trans h.isAssignable

/-! ### Functions and loops -/

theorem follows_function (one : FollowsNode places body) :
    FollowsNode places (.function span name params body) := by
  intro w w' code h
  obtain ⟨_, _, made, rfl, rfl⟩ := h.function
  have within : Follows w _ _ _ := (one made).inside rfl rfl
  rw [Node.strands, Code.strands, Code.strandsOf, Code.strandsOf, Code.strandsOf, Strands.append_empty]
  exact within.after rfl

theorem follows_lambda (one : FollowsNode places body) :
    FollowsNode places (.lambda span params body) := by
  intro w w' code h
  obtain ⟨_, _, _, _, labelled, made, rfl, rfl⟩ := h.lambda
  rw [Node.strands, Code.strands]
  exact ((follows_returnLabel labelled).append (one made)).inside rfl rfl

theorem follows_loop (one : FollowsNode places body) : FollowsNode places (.loop span body) := by
  intro w w' code h
  obtain ⟨_, _, made, rfl, rfl⟩ := h.loop
  rw [Node.strands, Code.strands]
  exact @Follows.inside w _ _ _ _ (one made) _ [] rfl rfl

/-! ### Choices and jumps -/

theorem follows_choose (all : FollowsArms places branches) :
    FollowsNode places (.choose span branches none) := by
  intro w w' code h
  obtain ⟨_, made, rfl⟩ := h.choose
  rw [Node.strands, Code.strands, Code.strands, Strands.append_empty]
  exact all made

theorem follows_chooseElse (all : FollowsArms places branches) (last : FollowsNode places body) :
    FollowsNode places (.choose span branches (some body)) := by
  intro w w' code h
  obtain ⟨_, _, _, made, next, rfl⟩ := h.chooseElse
  rw [Node.strands, Code.strands]
  exact (all made).append (last next)

theorem follows_leave : FollowsNode places (.leave span none) := by
  intro w w' code h
  obtain ⟨_, -, rfl, rfl⟩ := h.leave
  exact .refl _

theorem follows_leaveWith (one : FollowsNode places value) :
    FollowsNode places (.leave span (some value)) := by
  intro w w' code h
  obtain ⟨_, _, -, made, rfl⟩ := h.leaveWith
  rw [Node.strands, Code.strands]
  exact one made

theorem follows_give : FollowsNode places (.give span none) := by
  intro w w' code h
  obtain ⟨_, -, labelled, rfl⟩ := h.give
  exact follows_returnLabel labelled

theorem follows_giveBack (one : FollowsNode places value) :
    FollowsNode places (.give span (some value)) := by
  intro w w' code h
  obtain ⟨_, _, _, -, labelled, made, rfl⟩ := h.giveBack
  rw [Node.strands, Code.strands]
  exact (follows_returnLabel labelled).append (one made)

theorem follows_importFrom {path : List String} {renamed : Option String} :
    FollowsNode places (.importFrom span path renamed) := by
  intro w w' code h
  obtain ⟨rfl, rfl⟩ := h.importFrom
  exact .refl _

end

/-! ### Trees -/

variable (places : Places)

mutual

/-- **The strands of a node's code follow those of the node.** -/
theorem follows_node : ∀ tree, FollowsNode places tree
  | .literal _ literal => follows_literal literal
  | .named _ _ => follows_named
  | .member _ target _ _ => follows_operation rfl (follows_cons (follows_node target) follows_nil)
  | .index _ target place =>
    have last := follows_cons (follows_node place) follows_nil
    follows_operation rfl (follows_cons (follows_node target) last)
  | .binary _ _ left right =>
    have last := follows_cons (follows_node right) follows_nil
    follows_operation rfl (follows_cons (follows_node left) last)
  | .unary _ _ operand => follows_operation rfl (follows_cons (follows_node operand) follows_nil)
  | .assign _ target value => by
    have last := follows_node value
    have alone := follows_cons last follows_nil
    cases target with
    | named _ _ => exact follows_assignName last
    | member _ object _ _ => exact follows_operation rfl (follows_cons (follows_node object) alone)
    | index _ object place =>
      have after := follows_cons (follows_node place) alone
      exact follows_operation rfl (follows_cons (follows_node object) after)
    | _ => exact follows_assignOther rfl
  | .call _ callee args => by
    have first := follows_node callee
    have others := follows_nodes args
    cases callee with
    | member _ object _ _ => exact follows_operation rfl (follows_cons (follows_node object) others)
    | named _ _ => exact follows_callName others
    | _ => exact follows_operation rfl (follows_cons first others)
  | .create _ target args => follows_create (follows_cons (follows_node target) (follows_nodes args))
  | .declare _ _ none => follows_declare
  | .declare _ _ (some value) => follows_variable (follows_node value)
  | .function _ _ _ body => follows_function (follows_node body)
  | .lambda _ _ body => follows_lambda (follows_node body)
  | .choose _ branches none => follows_choose (follows_arms branches)
  | .choose _ branches (some body) => follows_chooseElse (follows_arms branches) (follows_node body)
  | .loop _ body => follows_loop (follows_node body)
  | .leave _ none => follows_leave
  | .leave _ (some value) => follows_leaveWith (follows_node value)
  | .give _ none => follows_give
  | .give _ (some value) => follows_giveBack (follows_node value)
  | .importFrom _ _ _ => follows_importFrom
  | .block _ statements => follows_block (follows_nodes statements)
  | .plain _ expression => follows_plain (follows_node expression)
  | .empty _ => follows_empty

theorem follows_nodes : ∀ trees, FollowsNodes places trees
  | [] => follows_nil
  | first :: rest => follows_cons (follows_node first) (follows_nodes rest)

theorem follows_arms : ∀ branches, FollowsArms places branches
  | [] => follows_noArms
  | (test, body) :: rest =>
    follows_arm (follows_node test) (follows_node body) (follows_arms rest)

end

end Compile

/-! ## Programs -/

/-- **The strands of a program follow those of its tree**, the module's and those of all inner scopes. -/
theorem strands_compile {number : Nat} {source : List Char} {tree : Node} {program : Program}
    (h : (compile number source tree).1 = .ok program) :
    List.Forall₂ Compile.Threaded (tree.strands.all []) (program.code.strands.all ()) := by
  obtain ⟨_, made, -, -⟩ := yields_compile h
  obtain ⟨own, inner⟩ := Compile.follows_node _ tree made
  exact .cons ⟨_, _, _, rfl, own⟩ inner

/-- Each strand of a tree goes with the strand of the program that stands in its place. -/
theorem exists_strand_compile {number : Nat} {source : List Char} {tree : Node} {program : Program}
    (h : (compile number source tree).1 = .ok program) {k : Nat} {strand : List String × List Mention}
    (found : (tree.strands.all [])[k]? = some strand) :
    ∃ touches, (program.code.strands.all ())[k]? = some ((), touches) ∧
      Compile.Threaded strand ((), touches) := by
  have threaded := strands_compile h
  obtain ⟨inside, rfl⟩ := List.getElem?_eq_some_iff.1 found
  have there : k < (program.code.strands.all ()).length := threaded.length_eq ▸ inside
  exact ⟨_, List.getElem?_eq_getElem there, threaded.get inside there⟩

end HostScript
