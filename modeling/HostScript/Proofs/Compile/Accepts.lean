import HostScript.Proofs.Compile.Placement

/-!
# Proofs/Compile/Accepts — compiling settles on the first fault

`settles_node` goes over a tree with one lemma for each construct, in the order in which the compiler
takes the parts of the construct.
-/

namespace HostScript

namespace Compile

open Node (constructs constructsOf constructsOfArms firstFault? firstFault?_cons firstFault?_append)

/-- Compiling a node settles on the first fault in it. -/
def SettlesNode (places : Places) (tree : Node) : Prop :=
  ∀ around, Settles places (firstFault? (tree.constructs around)) around around (node places tree)

/-- Compiling nodes in order settles on the first fault in them. -/
def SettlesNodes (places : Places) (trees : List Node) : Prop :=
  ∀ around,
    Settles places (firstFault? (constructsOf around trees)) around around (nodes places trees)

/-- Compiling tests and bodies in order settles on the first fault in them. -/
def SettlesArms (places : Places) (branches : List (Node × Node)) : Prop :=
  ∀ around,
    Settles places (firstFault? (constructsOfArms around branches)) around around (arms places branches)

section

variable {places : Places} {span inner : Span} {name : String} {target value body : Node}
  {trees args : List Node} {params : List String} {branches : List (Node × Node)}

/-! ## Lists of nodes -/

theorem settles_nil : SettlesNodes places [] := by
  intro around
  rw [nodes, constructsOf]
  exact .pure []

theorem settles_cons (one : SettlesNode places value) (rest : SettlesNodes places trees) :
    SettlesNodes places (value :: trees) := by
  intro around
  rw [nodes, constructsOf, firstFault?_append]
  exact (one around).bind fun _ => (rest around).bind_quiet fun _ => .pure _

theorem settles_noArms : SettlesArms places [] := by
  intro around
  rw [arms, constructsOfArms]
  exact .pure []

theorem settles_arm (first : SettlesNode places value) (second : SettlesNode places body)
    (rest : SettlesArms places branches) : SettlesArms places ((value, body) :: branches) := by
  intro around
  rw [arms, constructsOfArms, firstFault?_append, firstFault?_append]
  exact (first around).bind fun _ => (second around).bind fun _ =>
    (rest around).bind_quiet fun _ => .pure _

/-! ## Simple nodes and operations -/

theorem settles_literal (literal : Literal) : SettlesNode places (.literal span literal) := by
  intro around
  rw [node, constructs]
  exact .pure _

theorem settles_empty : SettlesNode places (.empty span) := by
  intro around
  rw [node, constructs]
  exact .pure _

theorem settles_plain (one : SettlesNode places value) : SettlesNode places (.plain span value) := by
  intro around
  rw [node, constructs]
  exact one around

theorem settles_block (all : SettlesNodes places trees) : SettlesNode places (.block span trees) := by
  intro around
  rw [node, constructs]
  exact (all around).bind_quiet fun _ => .pure _

theorem settles_named : SettlesNode places (.named span name) := by
  intro around
  rw [node, constructs]
  refine .scopes fun scopes _ => ?_
  split
  next => exact .pure _
  next => exact .operation _ _ _

theorem settles_member {kind : MemberKind} (one : SettlesNode places target) :
    SettlesNode places (.member span target name kind) := by
  intro around
  rw [node, constructs]
  exact (one around).bind_quiet fun _ => .operation _ _ _

theorem settles_unary {op : UnaryOp} (one : SettlesNode places value) :
    SettlesNode places (.unary span op value) := by
  intro around
  rw [node, constructs]
  exact (one around).bind_quiet fun _ => .operation _ _ _

theorem settles_index (first : SettlesNode places target) (second : SettlesNode places value) :
    SettlesNode places (.index span target value) := by
  intro around
  rw [node, constructs, firstFault?_cons, firstFault?_append]
  exact (first around).bind fun _ => (second around).bind_quiet fun _ => .operation _ _ _

theorem settles_binary {op : BinaryOp} (first : SettlesNode places target)
    (second : SettlesNode places value) : SettlesNode places (.binary span op target value) := by
  intro around
  rw [node, constructs, firstFault?_cons, firstFault?_append]
  exact (first around).bind fun _ => (second around).bind_quiet fun _ => .operation _ _ _

theorem settles_create (first : SettlesNode places target) (others : SettlesNodes places args) :
    SettlesNode places (.create span target args) := by
  intro around
  rw [node, constructs, firstFault?_cons, firstFault?_append]
  exact (Settles.request _).quiet_bind fun _ => (first around).bind fun _ =>
    (others around).bind_quiet fun _ => .pure _

/-! ## Calls -/

theorem settles_callMember {kind : MemberKind} (first : SettlesNode places target)
    (others : SettlesNodes places args) :
    SettlesNode places (.call span (.member inner target name kind) args) := by
  intro around
  rw [node, constructs, constructs, firstFault?_cons, firstFault?_append, firstFault?_cons]
  exact (first around).bind fun _ => (others around).bind_quiet fun _ => .operation _ _ _

theorem settles_callName (others : SettlesNodes places args) :
    SettlesNode places (.call span (.named inner name) args) := by
  intro around
  rw [node, constructs, constructs, firstFault?_cons, firstFault?_append, firstFault?_cons]
  refine .scopes fun scopes _ => ?_
  split
  next => exact (others around).bind_quiet fun _ => .operation _ _ _
  next => exact (others around).bind_quiet fun _ => .operation _ _ _

theorem settles_callOther (first : SettlesNode places target) (others : SettlesNodes places args)
    (no_member : ∀ span object name kind, target ≠ .member span object name kind)
    (no_name : ∀ span name, target ≠ .named span name) :
    SettlesNode places (.call span target args) := by
  intro around
  rw [node, constructs, firstFault?_cons, firstFault?_append]
  · exact (first around).bind fun _ => (others around).bind_quiet fun _ => .operation _ _ _
  · exact no_member
  · exact no_name

/-! ## Variables -/

theorem settles_declare : SettlesNode places (.declare span name none) := by
  intro around
  rw [node, constructs]
  exact (Settles.changeScopes (Scopes.kinds_declareLocal · name)).quiet_bind fun _ => .pure _

theorem settles_initialized (one : SettlesNode places value) :
    SettlesNode places (.declare span name (some value)) := by
  intro around
  rw [node, constructs]
  refine (one around).bind_quiet fun _ => ?_
  exact (Settles.changeScopes (Scopes.kinds_declareLocal · name)).quiet_bind fun _ => .pure _

theorem settles_assignName (last : SettlesNode places value) :
    SettlesNode places (.assign span (.named inner name) value) := by
  intro around
  rw [node, constructs, constructs, firstFault?_cons, firstFault?_append, firstFault?_cons]
  refine (last around).bind_quiet fun _ => .scopes fun scopes _ => ?_
  split
  next => exact .pure _
  next => exact (Settles.changeScopes (Scopes.kinds_declareGlobal · name)).quiet_bind fun _ => .pure _

theorem settles_assignMember {kind : MemberKind} (first : SettlesNode places target)
    (last : SettlesNode places value) :
    SettlesNode places (.assign span (.member inner target name kind) value) := by
  intro around
  rw [node, constructs, constructs, firstFault?_cons, firstFault?_append, firstFault?_cons]
  exact (first around).bind fun _ => (last around).bind_quiet fun _ => .operation _ _ _

theorem settles_assignIndex {index : Node} (first : SettlesNode places target)
    (second : SettlesNode places index) (last : SettlesNode places value) :
    SettlesNode places (.assign span (.index inner target index) value) := by
  intro around
  rw [node, constructs, constructs, firstFault?_cons, firstFault?_append, firstFault?_cons,
    firstFault?_append]
  simp only [Node.fault?, Node.isAssignable, if_true, Option.none_or, Option.or_assoc]
  exact (first around).bind fun _ => (second around).bind fun _ =>
    (last around).bind_quiet fun _ => .operation _ _ _

/-- What cannot be assigned to is refused before its parts are looked at. -/
theorem settles_assignOther (h : target.isAssignable = false) :
    SettlesNode places (.assign span target value) := by
  intro around
  rw [constructs, firstFault?_cons]
  simp only [Node.fault?, h, Bool.false_eq_true, if_false, Option.some_or]
  cases target with
  | named _ _ => cases h
  | member _ _ _ _ => cases h
  | index _ _ _ => cases h
  | _ =>
    rw [node]
    · exact .refuse _ _
    all_goals simp

/-! ## Functions -/

theorem settles_function (one : SettlesNode places body) :
    SettlesNode places (.function span name params body) := by
  intro around
  rw [node, constructs, firstFault?_cons]
  refine .scopes fun scopes stands => ?_
  simp only [stands.atModule]
  refine .ite fun _ => Settles.freshOwner.quiet_bind fun owner => ?_
  have inside : Settles places none around (.function :: around) (push (.function owner params)) :=
    .push rfl
  exact inside.quiet_bind fun _ => (one _).bind_quiet fun _ =>
    (Settles.template _ _ _).quiet_bind fun _ => .operation _ _ _

theorem settles_lambda (one : SettlesNode places body) :
    SettlesNode places (.lambda span params body) := by
  intro around
  rw [node, constructs]
  refine Settles.freshOwner.quiet_bind fun owner => ?_
  have inside : Settles places none around (.function :: around) (push (.function owner params)) :=
    .push rfl
  exact inside.quiet_bind fun _ => Settles.returnLabel.quiet_bind fun _ => (one _).bind_quiet fun _ =>
    (Settles.template _ _ _).quiet_bind fun _ => .pure _

/-! ## Choices, loops and jumps -/

theorem settles_choose (all : SettlesArms places branches) :
    SettlesNode places (.choose span branches none) := by
  intro around
  rw [node, constructs]
  exact (all around).bind_quiet fun _ => .pure _

theorem settles_chooseElse (all : SettlesArms places branches) (last : SettlesNode places body) :
    SettlesNode places (.choose span branches (some body)) := by
  intro around
  rw [node, constructs, firstFault?_cons, firstFault?_append]
  exact (all around).bind fun _ => (last around).bind_quiet fun _ => .pure _

theorem settles_loop (one : SettlesNode places body) : SettlesNode places (.loop span body) := by
  intro around
  rw [node, constructs]
  refine Settles.freshLabel.quiet_bind fun label => .scopes fun scopes _ => ?_
  have inside : Settles places none around (.loop :: around) (push (.loop scopes.owner label)) :=
    .push rfl
  exact inside.quiet_bind fun _ => (one _).bind_quiet fun _ =>
    Settles.pop.quiet_bind fun _ => .pure _

/-- Leaving a loop is a step that is taken where the innermost body is a loop's. -/
theorem settles_jump {around : List Body} {fault? : Option (CompileError.Cause × Span)}
    {taken : Label → Step Code}
    (settles : ∀ label, Settles places fault? around around (taken label)) :
    Settles places
      ((if around.head? = some .loop then none else some (.breakOutsideLoop, span)).or fault?)
      around around
      (scopes >>= fun scopes =>
        match scopes.loopLabel? with
        | some label => taken label
        | none => refuse places .breakOutsideLoop span) := by
  refine .scopes fun scopes stands => ?_
  cases found : scopes.loopLabel? with
  | some label =>
    rw [if_pos (stands.loopLabel?.1 ⟨label, found⟩)]
    exact settles label
  | none =>
    have outside : around.head? ≠ some .loop := by
      intro inside
      obtain ⟨label, known⟩ := stands.loopLabel?.2 inside
      cases found.symm.trans known
    rw [if_neg outside]
    exact .refuse _ _

theorem settles_leave : SettlesNode places (.leave span none) := by
  intro around
  rw [node, constructs, firstFault?_cons]
  exact settles_jump fun _ => .pure _

theorem settles_leaveWith (one : SettlesNode places value) :
    SettlesNode places (.leave span (some value)) := by
  intro around
  rw [node, constructs, firstFault?_cons]
  exact settles_jump fun _ => (one around).bind_quiet fun _ => .pure _

theorem settles_give : SettlesNode places (.give span none) := by
  intro around
  rw [node, constructs, firstFault?_cons]
  refine .scopes fun scopes stands => ?_
  simp only [stands.inFunction]
  exact .ite fun _ => Settles.returnLabel.quiet_bind fun _ => .pure _

theorem settles_giveBack (one : SettlesNode places value) :
    SettlesNode places (.give span (some value)) := by
  intro around
  rw [node, constructs, firstFault?_cons]
  refine .scopes fun scopes stands => ?_
  simp only [stands.inFunction]
  exact .ite fun _ => Settles.returnLabel.quiet_bind fun _ => (one around).bind_quiet fun _ => .pure _

theorem settles_importFrom {path : List String} {renamed : Option String} :
    SettlesNode places (.importFrom span path renamed) := by
  intro around
  rw [node, constructs, firstFault?_cons]
  refine .scopes fun scopes stands => ?_
  simp only [stands.atModule]
  exact .ite fun _ => .pure _

end

/-! ## Trees -/

variable (places : Places)

mutual

/-- **Compiling a node settles on the first fault in it**, in the order of its constructs. -/
theorem settles_node : ∀ tree, SettlesNode places tree
  | .literal _ literal => settles_literal literal
  | .named _ _ => settles_named
  | .member _ target _ _ => settles_member (settles_node target)
  | .index _ target index => settles_index (settles_node target) (settles_node index)
  | .binary _ _ left right => settles_binary (settles_node left) (settles_node right)
  | .unary _ _ operand => settles_unary (settles_node operand)
  | .assign _ target value => by
    have last := settles_node value
    cases target with
    | named _ _ => exact settles_assignName last
    | member _ object _ _ => exact settles_assignMember (settles_node object) last
    | index _ object index =>
      exact settles_assignIndex (settles_node object) (settles_node index) last
    | _ => exact settles_assignOther rfl
  | .call _ callee args => by
    have first := settles_node callee
    have others := settles_nodes args
    cases callee with
    | member _ object _ _ => exact settles_callMember (settles_node object) others
    | named _ _ => exact settles_callName others
    | _ => exact settles_callOther first others (by simp) (by simp)
  | .create _ target args => settles_create (settles_node target) (settles_nodes args)
  | .declare _ _ none => settles_declare
  | .declare _ _ (some value) => settles_initialized (settles_node value)
  | .function _ _ _ body => settles_function (settles_node body)
  | .lambda _ _ body => settles_lambda (settles_node body)
  | .choose _ branches none => settles_choose (settles_arms branches)
  | .choose _ branches (some body) => settles_chooseElse (settles_arms branches) (settles_node body)
  | .loop _ body => settles_loop (settles_node body)
  | .leave _ none => settles_leave
  | .leave _ (some value) => settles_leaveWith (settles_node value)
  | .give _ none => settles_give
  | .give _ (some value) => settles_giveBack (settles_node value)
  | .importFrom _ _ _ => settles_importFrom
  | .block _ statements => settles_block (settles_nodes statements)
  | .plain _ expression => settles_plain (settles_node expression)
  | .empty _ => settles_empty

theorem settles_nodes : ∀ trees, SettlesNodes places trees
  | [] => settles_nil
  | first :: rest => settles_cons (settles_node first) (settles_nodes rest)

theorem settles_arms : ∀ branches, SettlesArms places branches
  | [] => settles_noArms
  | (test, body) :: rest =>
    settles_arm (settles_node test) (settles_node body) (settles_arms rest)

end

end Compile

end HostScript
