import HostScript.Proofs.Compile.Constructs
import HostScript.Proofs.Compile.Fits
import HostScript.Proofs.Syntax.Composition

/-!
# Proofs/Compile/Parts — the parts of a tree are compiled to parts of its code

A tree is compiled by compiling what it is made of, with one exception: what stands before `=` or before
the arguments of a call may be taken apart, so that only the parts of it are compiled.  That happens to
names, members and indexed places alone; every other part of a tree that compiles is compiled to a part of
the code (`Compiled.part`).

What compiling does not look at is how a member access is written (`compile_withKind`).
-/

namespace HostScript

/-! ## Parts of codes -/

/-- The codes a code is directly made of. -/
@[simp] def Code.children : Code → List Code
  | null | constant _ | thisModule | read _ | importAs _ _ _ => []
  | write _ value | leave _ value | give _ value => [value]
  | dispatch _ _ operands => operands
  | closure template => [template.body]
  | choose branches otherwise => armCodes branches ++ [otherwise]
  | loop _ body => [body]
  | sequence codes => codes

/-- **A part of a code**: the code itself, or a part of something it is made of. -/
inductive Code.PartOf (part : Code) : Code → Prop where
  | self : PartOf part part
  | child {child code : Code} : child ∈ code.children → PartOf part child → PartOf part code

namespace Code.PartOf

variable {a b c : Code}

theorem of_mem (h : a ∈ b.children) : a.PartOf b := .child h .self

theorem trans (h : a.PartOf b) (k : b.PartOf c) : a.PartOf c := by
  induction k with
  | self => exact h
  | child mem _ ih => exact .child mem ih

end Code.PartOf

open Code (armCodes)

namespace Compile

/-! ## What the parts of a tree become -/

/-- **A node that is compiled to a part of a code.** -/
def Compiled (places : Places) (code : Code) (tree : Node) : Prop :=
  ∃ w part w', Yields (node places tree) w part w' ∧ part.PartOf code

/-- A node that is compiled to a part of a code, or that is taken apart so that what it is made of is. -/
def Covered (places : Places) (code : Code) (tree : Node) : Prop :=
  Compiled places code tree ∨
    tree.isAssignable = true ∧ ∀ child ∈ tree.children, Compiled places code child

variable {places : Places} {tree : Node} {trees : List Node} {branches : List (Node × Node)}
  {w w' : Workspace} {code whole : Code} {codes : List Code}

theorem Yields.compiled (h : Yields (node places tree) w code w') (part : code.PartOf whole) :
    Compiled places whole tree := ⟨w, code, w', h, part⟩

theorem Yields.compiled_of_mem (h : Yields (nodes places trees) w codes w')
    (parts : ∀ code ∈ codes, code.PartOf whole) : ∀ tree ∈ trees, Compiled places whole tree := by
  induction trees generalizing w codes with
  | nil => exact fun _ never => absurd never List.not_mem_nil
  | cons first rest ih =>
    obtain ⟨_, _, _, made, next, rfl⟩ := h.cons
    obtain ⟨here, later⟩ := List.forall_mem_cons.1 parts
    exact List.forall_mem_cons.2 ⟨made.compiled here, ih next later⟩

theorem Yields.compiled_arms {arms : List (Code × Code)}
    (h : Yields (Compile.arms places branches) w arms w')
    (parts : ∀ code ∈ armCodes arms, code.PartOf whole) :
    ∀ tree ∈ branches.flatMap (fun branch => [branch.1, branch.2]), Compiled places whole tree := by
  induction branches generalizing w arms with
  | nil => exact fun _ never => absurd never List.not_mem_nil
  | cons branch rest ih =>
    obtain ⟨_, _, _, _, _, made, next, last, rfl⟩ := h.arm
    obtain ⟨test, others⟩ := List.forall_mem_cons.1 parts
    obtain ⟨body, later⟩ := List.forall_mem_cons.1 others
    exact List.forall_mem_cons.2 ⟨made.compiled test,
      List.forall_mem_cons.2 ⟨next.compiled body, ih last later⟩⟩

theorem partOf_dispatch {position : Position} {s : Signature} :
    ∀ code ∈ codes, code.PartOf (.dispatch position s codes) := fun _ mem => .of_mem mem

theorem partOf_inOrder : ∀ code ∈ codes, code.PartOf (inOrder codes) := by
  intro code mem
  match codes, mem with
  | [_], mem => exact List.mem_singleton.1 mem ▸ .self
  | _ :: _ :: _, mem => exact .of_mem mem

/-- What an operation is made of works as an operand, or what that is made of does. -/
theorem Covered.of_operation {s : Signature} (is_operation : tree.operation? = some (s, trees))
    (operands : ∀ operand ∈ trees, Compiled places whole operand) :
    ∀ child ∈ tree.children, Covered places whole child := by
  have each (same : tree.children = trees) : ∀ child ∈ tree.children, Covered places whole child :=
    fun child mem => .inl (operands child (same ▸ mem))
  cases tree with
  | member | index | binary | unary =>
    cases is_operation
    exact each rfl
  | assign _ target value =>
    cases target with
    | member | index =>
      cases is_operation
      refine List.forall_mem_cons.2 ⟨.inr ⟨rfl, fun child mem => ?_⟩,
        List.forall_mem_singleton.2 (.inl (operands value (by simp)))⟩
      exact operands child (List.mem_append_left [value] mem)
    | _ => cases is_operation
  | call _ callee args =>
    cases callee with
    | named => cases is_operation
    | member _ object _ _ =>
      cases is_operation
      obtain ⟨first, others⟩ := List.forall_mem_cons.1 operands
      exact List.forall_mem_cons.2 ⟨.inr ⟨rfl, List.forall_mem_singleton.2 first⟩,
        fun child mem => .inl (others child mem)⟩
    | _ =>
      cases is_operation
      exact each rfl
  | _ => cases is_operation

/-- **What a compiled node is made of is compiled**, or taken apart. -/
theorem Yields.covered (h : Yields (node places tree) w code w') :
    ∀ child ∈ tree.children, Covered places code child := by
  have operation {s : Signature} {trees : List Node} (is_operation : tree.operation? = some (s, trees)) :
      ∀ child ∈ tree.children, Covered places code child := by
    obtain ⟨codes, between, made, rfl, -⟩ := h.operates is_operation
    exact .of_operation is_operation (made.compiled_of_mem partOf_dispatch)
  have one {child : Node} (compiled : Compiled places code child) :
      ∀ other ∈ [child], Covered places code other := List.forall_mem_singleton.2 (.inl compiled)
  cases tree with
  | literal | named | importFrom | empty => exact fun _ never => absurd never List.not_mem_nil
  | member | index | binary | unary => exact operation rfl
  | assign _ target value =>
    cases target with
    | member | index => exact operation rfl
    | named =>
      refine List.forall_mem_cons.2 ⟨.inr ⟨rfl, List.forall_mem_nil _⟩, ?_⟩
      obtain ⟨_, _, made, ⟨_, -, rfl, -⟩ | ⟨-, rfl, -⟩⟩ := h.assignName
      · exact one (made.compiled (.of_mem (List.mem_singleton_self _)))
      · exact one (made.compiled (.of_mem (List.mem_singleton_self _)))
    | _ => cases h.isAssignable
  | call _ callee args =>
    cases callee with
    | named =>
      refine List.forall_mem_cons.2 ⟨.inr ⟨rfl, List.forall_mem_nil _⟩, ?_⟩
      obtain ⟨codes, _, made, ⟨_, -, rfl, -⟩ | ⟨-, rfl, -⟩⟩ := h.callName
      · obtain ⟨-, operands⟩ := List.forall_mem_cons.1 partOf_dispatch
        exact fun child mem => .inl (made.compiled_of_mem operands child mem)
      · exact fun child mem => .inl (made.compiled_of_mem partOf_dispatch child mem)
    | _ => exact operation rfl
  | create =>
    obtain ⟨codes, made, rfl⟩ := h.create
    exact fun child mem => .inl (made.compiled_of_mem partOf_dispatch child mem)
  | declare _ _ init =>
    cases init with
    | none => exact fun _ never => absurd never List.not_mem_nil
    | some value =>
      obtain ⟨_, _, made, rfl, -⟩ := h.initialized
      exact one (made.compiled (.of_mem (List.mem_singleton_self _)))
  | function =>
    obtain ⟨_, _, made, rfl, -⟩ := h.function
    exact one (made.compiled (.child (List.mem_cons_of_mem _ (List.mem_singleton_self _))
      (.of_mem (List.mem_singleton_self _))))
  | lambda =>
    obtain ⟨_, _, _, _, -, made, rfl, -⟩ := h.lambda
    exact one (made.compiled (.of_mem (List.mem_singleton_self _)))
  | choose _ branches otherwise =>
    cases otherwise with
    | none =>
      obtain ⟨arms, made, rfl⟩ := h.choose
      intro child mem
      rw [Node.children, Option.toList_none, List.append_nil] at mem
      exact .inl (made.compiled_arms (fun _ among => .of_mem (List.mem_append_left _ among)) child mem)
    | some last =>
      obtain ⟨arms, _, _, made, next, rfl⟩ := h.chooseElse
      refine List.forall_mem_append.2 ⟨fun child mem => .inl ?_, one (next.compiled ?_)⟩
      · exact made.compiled_arms (fun _ among => .of_mem (List.mem_append_left _ among)) child mem
      · exact .of_mem (List.mem_append_right _ (List.mem_singleton_self _))
  | loop =>
    obtain ⟨_, _, made, rfl, -⟩ := h.loop
    exact one (made.compiled (.of_mem (List.mem_singleton_self _)))
  | leave _ value =>
    cases value with
    | none => exact fun _ never => absurd never List.not_mem_nil
    | some value =>
      obtain ⟨_, _, -, made, rfl⟩ := h.leaveWith
      exact one (made.compiled (.of_mem (List.mem_singleton_self _)))
  | give _ value =>
    cases value with
    | none => exact fun _ never => absurd never List.not_mem_nil
    | some value =>
      obtain ⟨_, _, _, -, -, made, rfl⟩ := h.giveBack
      exact one (made.compiled (.of_mem (List.mem_singleton_self _)))
  | block =>
    obtain ⟨codes, made, rfl⟩ := h.block
    exact fun child mem => .inl (made.compiled_of_mem partOf_inOrder child mem)
  | plain => exact one (h.plain.compiled .self)

theorem Compiled.mono (h : Compiled places code tree) (part : code.PartOf whole) :
    Compiled places whole tree := by
  obtain ⟨w, made, w', yields, inside⟩ := h
  exact ⟨w, made, w', yields, inside.trans part⟩

theorem Covered.child {child : Node} (h : Covered places code tree) (mem : child ∈ tree.children) :
    Covered places code child := by
  rcases h with ⟨w, made, w', yields, part⟩ | ⟨-, compiled⟩
  · rcases yields.covered child mem with compiled | ⟨apart, compiled⟩
    · exact .inl (compiled.mono part)
    · exact .inr ⟨apart, fun inner among => (compiled inner among).mono part⟩
  · exact .inl (compiled child mem)

/-- **A part of a compiled tree is compiled**, if it is no name, member or indexed place. -/
theorem Compiled.part {part : Node} (h : Compiled places code tree) (inside : part.PartOf tree)
    (whole : part.isAssignable = false) : Compiled places code part := by
  have covered : Covered places code tree := .inl h
  clear h
  induction inside with
  | self =>
    rcases covered with compiled | ⟨apart, -⟩
    · exact compiled
    · rw [whole] at apart
      cases apart
  | child mem _ ih => exact ih (covered.child mem)

end Compile

/-- What a program has been compiled from. -/
theorem compiled_of_compile {number : Nat} {source : List Char} {tree : Node} {program : Program}
    (h : (compile number source tree).1 = .ok program) :
    Compile.Compiled (fun span => (LineIndex.ofSource source).position span.start) program.code
      tree := by
  obtain ⟨w, made, -, -⟩ := yields_compile h
  exact ⟨_, program.code, w, made, .self⟩

/-! ## How members are written -/

namespace Node

mutual

/-- A tree with all member accesses written in one way. -/
def withKind (kind : MemberKind) : Node → Node
  | literal span value => .literal span value
  | named span name => .named span name
  | member span target name _ => .member span (withKind kind target) name kind
  | index span target place => .index span (withKind kind target) (withKind kind place)
  | binary span op left right => .binary span op (withKind kind left) (withKind kind right)
  | unary span op operand => .unary span op (withKind kind operand)
  | assign span target value => .assign span (withKind kind target) (withKind kind value)
  | call span callee args => .call span (withKind kind callee) (withKindAll kind args)
  | create span target args => .create span (withKind kind target) (withKindAll kind args)
  | declare span name none => .declare span name none
  | declare span name (some init) => .declare span name (some (withKind kind init))
  | function span name params body => .function span name params (withKind kind body)
  | lambda span params body => .lambda span params (withKind kind body)
  | choose span branches none => .choose span (withKindArms kind branches) none
  | choose span branches (some otherwise) =>
    .choose span (withKindArms kind branches) (some (withKind kind otherwise))
  | loop span body => .loop span (withKind kind body)
  | leave span none => .leave span none
  | leave span (some value) => .leave span (some (withKind kind value))
  | give span none => .give span none
  | give span (some value) => .give span (some (withKind kind value))
  | importFrom span path renamed => .importFrom span path renamed
  | block span statements => .block span (withKindAll kind statements)
  | plain span expression => .plain span (withKind kind expression)
  | empty span => .empty span

/-- Trees with all member accesses written in one way. -/
def withKindAll (kind : MemberKind) : List Node → List Node
  | [] => []
  | first :: rest => withKind kind first :: withKindAll kind rest

/-- Tests and bodies with all member accesses written in one way. -/
def withKindArms (kind : MemberKind) : List (Node × Node) → List (Node × Node)
  | [] => []
  | (test, body) :: rest => (withKind kind test, withKind kind body) :: withKindArms kind rest

end

theorem length_withKindAll (kind : MemberKind) (trees : List Node) :
    (withKindAll kind trees).length = trees.length := by
  induction trees with
  | nil => rfl
  | cons _ _ ih => exact congrArg (· + 1) ih

end Node

namespace Compile

variable (places : Places) (kind : MemberKind)

mutual

/-- **Compiling does not look at how members are written.** -/
theorem node_withKind : ∀ tree : Node, node places (tree.withKind kind) = node places tree
  | .literal _ _ | .named _ _ | .importFrom _ _ _ | .empty _ | .declare _ _ none | .leave _ none
  | .give _ none => rfl
  | .member _ target _ _ => by
    rw [Node.withKind, node, node, node_withKind target]
  | .index _ target place => by
    rw [Node.withKind, node, node, node_withKind target, node_withKind place]
  | .binary _ _ left right => by
    rw [Node.withKind, node, node, node_withKind left, node_withKind right]
  | .unary _ _ operand => by
    rw [Node.withKind, node, node, node_withKind operand]
  | .assign span target value => by
    have last := node_withKind value
    have first := node_withKind target
    cases target with
    | named => rw [Node.withKind, Node.withKind, node, node, last]
    | member _ object _ _ =>
      have inner := node_withKind object
      rw [Node.withKind, Node.withKind, node, node, last, inner]
    | index _ object place =>
      have inner := node_withKind object
      have between := node_withKind place
      rw [Node.withKind, Node.withKind, node, node, last, inner, between]
    | declare _ _ init => cases init <;> rfl
    | choose _ _ otherwise => cases otherwise <;> rfl
    | leave _ inner | give _ inner => cases inner <;> rfl
    | _ => rfl
  | .call span callee args => by
    have others := nodes_withKind args
    have first := node_withKind callee
    have value : ∀ a b : Step Code, a = b → (a >>= fun callee =>
        nodes places (Node.withKindAll kind args) >>= fun operands =>
          operation (places span) (.invoke operands.length) (callee :: operands)) =
        (b >>= fun callee => nodes places args >>= fun operands =>
          operation (places span) (.invoke operands.length) (callee :: operands)) := by
      rintro a b rfl
      rw [others]
    cases callee with
    | named => rw [Node.withKind, Node.withKind, node, node, others]
    | member _ object _ _ =>
      have inner := node_withKind object
      rw [Node.withKind, Node.withKind, node, node, others, inner]
    | declare _ _ init => cases init <;> exact value _ _ first
    | choose _ _ otherwise => cases otherwise <;> exact value _ _ first
    | leave _ inner | give _ inner => cases inner <;> exact value _ _ first
    | _ => exact value _ _ first
  | .create _ target args => by
    rw [Node.withKind, node, node, node_withKind target, nodes_withKind args, Node.length_withKindAll]
  | .declare _ _ (some init) => by
    rw [Node.withKind, node, node, node_withKind init]
  | .function _ _ _ body => by
    rw [Node.withKind, node, node, node_withKind body]
  | .lambda _ _ body => by
    rw [Node.withKind, node, node, node_withKind body]
  | .choose _ branches none => by
    rw [Node.withKind, node, node, arms_withKind branches]
  | .choose _ branches (some otherwise) => by
    rw [Node.withKind, node, node, arms_withKind branches, node_withKind otherwise]
  | .loop _ body => by
    rw [Node.withKind, node, node, node_withKind body]
  | .leave _ (some value) => by
    rw [Node.withKind, node, node, node_withKind value]
  | .give _ (some value) => by
    rw [Node.withKind, node, node, node_withKind value]
  | .block _ statements => by
    rw [Node.withKind, node, node, nodes_withKind statements]
  | .plain _ expression => by
    rw [Node.withKind, node, node, node_withKind expression]

theorem nodes_withKind : ∀ trees : List Node,
    nodes places (Node.withKindAll kind trees) = nodes places trees
  | [] => rfl
  | first :: rest => by
    rw [Node.withKindAll, nodes, nodes, node_withKind first, nodes_withKind rest]

theorem arms_withKind : ∀ branches : List (Node × Node),
    arms places (Node.withKindArms kind branches) = arms places branches
  | [] => rfl
  | (test, body) :: rest => by
    rw [Node.withKindArms, arms, arms, node_withKind test, node_withKind body, arms_withKind rest]

end

end Compile

/-- **A program does not depend on how its member accesses are written.** -/
theorem compile_withKind (number : Nat) (source : List Char) (tree : Node) (kind : MemberKind) :
    compile number source (tree.withKind kind) = compile number source tree := by
  unfold compile
  dsimp only
  rw [Compile.node_withKind]

end HostScript
