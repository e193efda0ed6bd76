import HostScript.Proofs.Compile.Derivations
import HostScript.Proofs.Compile.Parts

/-!
# Proofs/Compile/Operations — where the operations of a code are written

A tree is compiled to operations and imports at the places where its constructs start, and to what puts
these together.  So each operation in a code has a construct of the tree that it is written as: one that is
compiled to this operation and starts at the operation's position (`Compile.Compiles.written`).

This is the way back from what `Compile.Compiled.part` says: there each part of a tree is followed to its
code, here each operation of the code to its part of the tree.
-/

namespace HostScript

/-- The position of an operation or an import. -/
@[simp] def Code.position? : Code → Option Position
  | .dispatch p _ _ | .importAs p _ _ => some p
  | _ => none

/-- The constructs that are compiled to operations or imports, if their names are in no slot. -/
@[simp] def Node.operates : Node → Bool
  | named _ _ | member _ _ _ _ | index _ _ _ | binary _ _ _ _ | unary _ _ _ | assign _ _ _ | call _ _ _
  | create _ _ _ | function _ _ _ _ | importFrom _ _ _ => true
  | _ => false

theorem Node.operates_of_operation? {tree : Node} {s : Signature} {trees : List Node}
    (h : tree.operation? = some (s, trees)) : tree.operates = true := by
  cases tree <;> first | rfl | cases h

/-- The operands of an operation are parts of it. -/
theorem Node.partOf_of_operation? {tree : Node} {s : Signature} {trees : List Node}
    (h : tree.operation? = some (s, trees)) : ∀ operand ∈ trees, operand.PartOf tree := by
  have each (same : tree.children = trees) : ∀ operand ∈ trees, operand.PartOf tree :=
    fun operand mem => .child (same ▸ mem) .self
  cases tree with
  | member | index | binary | unary =>
    cases h
    exact each rfl
  | assign span target value =>
    have deeper : ∀ inner ∈ target.children, inner.PartOf (.assign span target value) :=
      fun _ mem => .child List.mem_cons_self (.child mem .self)
    have last : ∀ inner ∈ [value], inner.PartOf (.assign span target value) :=
      fun _ mem => .child (List.mem_cons_of_mem _ mem) .self
    cases target with
    | member =>
      cases h
      exact List.forall_mem_cons.2 ⟨deeper _ List.mem_cons_self, last⟩
    | index =>
      cases h
      exact List.forall_mem_cons.2 ⟨deeper _ List.mem_cons_self,
        List.forall_mem_cons.2 ⟨deeper _ (List.mem_cons_of_mem _ List.mem_cons_self), last⟩⟩
    | _ => cases h
  | call _ callee args =>
    cases callee with
    | named => cases h
    | member =>
      cases h
      refine List.forall_mem_cons.2 ⟨.child List.mem_cons_self (.child List.mem_cons_self .self), ?_⟩
      exact fun operand mem => .child (List.mem_cons_of_mem _ mem) .self
    | _ =>
      cases h
      exact each rfl
  | _ => cases h

open Code (armCodes)

namespace Compile

/-- The trees of work. -/
def Work.trees : Work → List Node
  | one tree _ => [tree]
  | all trees _ => trees
  | arms branches _ => branches.flatMap fun branch => [branch.1, branch.2]

/-- The codes of work. -/
def Work.codes : Work → List Code
  | one _ code => [code]
  | all _ codes => codes
  | arms _ codes => armCodes codes

/-- **The construct that an operation is written as**, in a tree: it is compiled to this operation, which
stands where the construct starts. -/
structure WrittenAs (places : Places) (tree : Node) (code : Code) (node : Node) : Prop where
  part : node.PartOf tree
  operates : node.operates = true
  compiled : ∃ w w', Yields (Compile.node places node) w code w'
  position : code.position? = some (places node.span)

/-- Codes whose operations are all written in some trees. -/
def AllWritten (places : Places) (trees : List Node) (codes : List Code) : Prop :=
  ∀ code ∈ codes, ∀ part : Code, part.PartOf code → part.position?.isSome →
    ∃ tree ∈ trees, ∃ node, WrittenAs places tree part node

variable {places : Places} {tree : Node} {trees : List Node} {code : Code} {codes more : List Code}

theorem WrittenAs.mono {inner node : Node} (h : WrittenAs places inner code node)
    (inside : inner.PartOf tree) : WrittenAs places tree code node := by
  refine ⟨?_, h.operates, h.compiled, h.position⟩
  induction inside with
  | self => exact h.part
  | child mem _ ih => exact .child mem ih

namespace AllWritten

theorem nil : AllWritten places trees [] := nofun

theorem cons (first : AllWritten places trees [code]) (rest : AllWritten places trees codes) :
    AllWritten places trees (code :: codes) :=
  List.forall_mem_cons.2 ⟨first code (List.mem_singleton_self _), rest⟩

theorem append (first : AllWritten places trees codes) (second : AllWritten places trees more) :
    AllWritten places trees (codes ++ more) := List.forall_mem_append.2 ⟨first, second⟩

/-- What is written in parts of a tree is written in the tree. -/
theorem inside (h : AllWritten places trees codes) (parts : ∀ inner ∈ trees, inner.PartOf tree) :
    AllWritten places [tree] codes := by
  intro code mem part within operates
  obtain ⟨inner, among, node, written⟩ := h code mem part within operates
  exact ⟨tree, List.mem_singleton_self _, node, written.mono (parts inner among)⟩

/-- What is written in some of the trees. -/
theorem mono {others : List Node} (h : AllWritten places trees codes) (sub : trees ⊆ others) :
    AllWritten places others codes := by
  intro code mem part within operates
  obtain ⟨inner, among, written⟩ := h code mem part within operates
  exact ⟨inner, sub among, written⟩

/-- What is no operation itself has only those of its parts. -/
theorem through (plain : code.position? = none) (parts : AllWritten places trees code.children) :
    AllWritten places trees [code] := by
  refine List.forall_mem_singleton.2 fun part within operates => ?_
  cases within with
  | self =>
    rw [plain] at operates
    cases operates
  | child mem below => exact parts _ mem part below operates

/-- An operation, with the construct that it is written as. -/
theorem operation (own : WrittenAs places tree code tree) (parts : AllWritten places [tree] code.children) :
    AllWritten places [tree] [code] := by
  refine List.forall_mem_singleton.2 fun part within operates => ?_
  cases within with
  | self => exact ⟨tree, List.mem_singleton_self _, tree, own⟩
  | child mem below => exact parts _ mem part below operates

theorem leaf (plain : code.position? = none) (empty : code.children = []) :
    AllWritten places trees [code] := through plain (empty ▸ nil)

theorem inOrder (h : AllWritten places trees codes) : AllWritten places trees [Compile.inOrder codes] := by
  match codes with
  | [] => exact leaf rfl rfl
  | [code] => exact h
  | _ :: _ :: _ => exact through rfl h

end AllWritten

theorem partOf_children : ∀ inner ∈ tree.children, inner.PartOf tree := fun _ mem => .child mem .self

/-- **Each operation is written as a construct**: by induction on how a tree is compiled, for each construct
is compiled to at most one operation beside those of its parts. -/
theorem Compiles.written {w w' : Workspace} {work : Work} (h : Compiles places w work w') :
    AllWritten places work.trees work.codes := by
  have child {tree : Node} {trees : List Node} {codes : List Code} (h : AllWritten places trees codes)
      (sub : trees ⊆ tree.children) : AllWritten places [tree] codes :=
    h.inside fun inner mem => partOf_children inner (sub mem)
  have sole {tree part : Node} {code : Code} (h : AllWritten places [part] [code])
      (mem : part ∈ tree.children) : AllWritten places [tree] [code] :=
    child h (List.cons_subset.2 ⟨mem, List.nil_subset _⟩)
  induction h with
  | nil | noArms => exact .nil
  | cons _ _ first rest =>
    exact (first.mono (by simp [Work.trees])).cons (rest.mono (by simp [Work.trees]))
  | arm _ _ _ test body rest =>
    refine (test.mono ?_).cons ((body.mono ?_).cons (rest.mono ?_)) <;> simp [Work.trees]
  | literal | empty | declare | read => exact .leaf rfl rfl
  | plain _ inner => exact sole inner List.mem_cons_self
  | block _ inner => exact (child inner (List.Subset.refl _)).inOrder
  | operation is_operation made operands =>
    have own := Node.operates_of_operation? is_operation
    refine .operation ⟨.self, own, ⟨_, _, (Compiles.operation is_operation made).yields⟩, rfl⟩ ?_
    exact operands.inside (Node.partOf_of_operation? is_operation)
  | create made operands =>
    exact .operation ⟨.self, rfl, ⟨_, _, (Compiles.create made).yields⟩, rfl⟩
      (child operands (List.Subset.refl _))
  | lookup missing =>
    exact .operation ⟨.self, rfl, ⟨_, _, (Compiles.lookup missing).yields⟩, rfl⟩ .nil
  | invoke known made operands =>
    refine .operation ⟨.self, rfl, ⟨_, _, (Compiles.invoke known made).yields⟩, rfl⟩ ?_
    exact .cons (.leaf rfl rfl) (child operands (List.subset_cons_self _ _))
  | call missing made operands =>
    exact .operation ⟨.self, rfl, ⟨_, _, (Compiles.call missing made).yields⟩, rfl⟩
      (child operands (List.subset_cons_self _ _))
  | declareWith _ value => exact .through rfl (sole value List.mem_cons_self)
  | assign _ _ value => exact .through rfl (sole value (List.mem_cons_of_mem _ List.mem_cons_self))
  | assignNew _ _ value => exact .through rfl (sole value (List.mem_cons_of_mem _ List.mem_cons_self))
  | function here made body =>
    refine .operation ⟨.self, rfl, ⟨_, _, (Compiles.function here made).yields⟩, rfl⟩ ?_
    exact .cons (.leaf rfl rfl) (.through rfl (sole body List.mem_cons_self))
  | lambda _ _ body => exact .through rfl (sole body List.mem_cons_self)
  | loop _ body => exact .through rfl (sole body List.mem_cons_self)
  | choose _ arms =>
    refine .through rfl (.append (child arms ?_) (.leaf rfl rfl))
    simp [Work.trees]
  | chooseElse _ _ arms body =>
    refine .through rfl (.append (child arms ?_) (sole body ?_)) <;> simp [Work.trees]
  | leave _ => exact .through rfl (.leaf rfl rfl)
  | leaveWith _ _ value => exact .through rfl (sole value List.mem_cons_self)
  | give _ _ => exact .through rfl (.leaf rfl rfl)
  | giveBack _ _ _ value => exact .through rfl (sole value List.mem_cons_self)
  | importFrom here =>
    exact .operation ⟨.self, rfl, ⟨_, _, (Compiles.importFrom here).yields⟩, rfl⟩ .nil

end Compile

end HostScript
