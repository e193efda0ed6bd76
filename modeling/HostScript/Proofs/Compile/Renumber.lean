import HostScript.Proofs.Compile.Program
import Mathlib.Data.List.Forall2

/-!
# Proofs/Compile/Renumber — the number of a source does not matter

A source is known by a number, which is another one each time the source is compiled.  The number is
part of owners only, and no decision depends on an owner; so two compilations of one tree that differ in
it go on in parallel, fail alike, and request the same: `requests_compile_eq`.
-/

namespace HostScript

/-! ## Scopes -/

/-- Scopes that differ in what owns them at most. -/
structure Scope.Alike (s t : Scope) : Prop where
  kind : s.kind = t.kind
  params : s.params = t.params
  locals : s.locals = t.locals
  size : s.slots.length = t.slots.length
  returnLabel? : s.returnLabel? = t.returnLabel?

namespace Scope.Alike

variable {s t : Scope}

theorem ownsFrame (h : s.Alike t) : s.ownsFrame = t.ownsFrame := by
  rw [Scope.ownsFrame, Scope.ownsFrame, h.kind]

theorem slot? (h : s.Alike t) (key : String) : s.slot? key = t.slot? key := by
  rw [Scope.slot?, Scope.slot?, h.params, h.locals]

theorem function (o p : Owner) (params : List String) :
    (Scope.function o params).Alike (.function p params) :=
  ⟨rfl, rfl, rfl, (List.length_map _).trans (List.length_map _).symm, rfl⟩

theorem loop (o p : Owner) (label : Label) : (Scope.loop o label).Alike (.loop p label) :=
  ⟨rfl, rfl, rfl, rfl, rfl⟩

end Scope.Alike

namespace Scopes

/-- Scopes that differ in what owns them at most, one by one. -/
def Alike (a b : Scopes) : Prop := List.Forall₂ Scope.Alike a b

namespace Alike

variable {a b : Scopes}

theorem findKey? (h : Alike a b) (key : String) :
    (a.findKey? key).isSome = (b.findKey? key).isSome := by
  induction h with
  | nil => rfl
  | @cons s t _ _ first _ ih =>
    rw [Scopes.findKey?, Scopes.findKey?, first.slot? key]
    cases t.slot? key with
    | none => rw [Option.isSome_map, Option.isSome_map, ih]
    | some _ => rfl

/-- A name is declared in both or in neither. -/
theorem find? (h : Alike a b) (name : String) :
    a.find? name = none ∧ b.find? name = none ∨
      ∃ slot other, a.find? name = some slot ∧ b.find? name = some other := by
  have same := h.findKey? (Text.fold name)
  unfold Scopes.find?
  cases left : a.findKey? (Text.fold name) <;> cases right : b.findKey? (Text.fold name) <;>
    rw [left, right] at same
  · exact .inl ⟨rfl, rfl⟩
  · cases same
  · cases same
  · exact .inr ⟨_, _, rfl, rfl⟩

theorem allocate (h : Alike a b) (v v' : Variable) :
    (Scopes.allocate v a).1 = (Scopes.allocate v' b).1 ∧
      Alike (Scopes.allocate v a).2 (Scopes.allocate v' b).2 := by
  induction h with
  | nil => exact ⟨rfl, .nil⟩
  | @cons s t outer outer' first rest ih =>
    rw [Scopes.allocate, Scopes.allocate, first.ownsFrame]
    split
    · refine ⟨first.size, .cons ⟨first.kind, first.params, first.locals, ?_, first.returnLabel?⟩ rest⟩
      rw [List.length_append, List.length_append, first.size]
      rfl
    · exact ⟨ih.1, .cons first ih.2⟩

theorem declareLocal (h : Alike a b) (name : String) :
    Alike (a.declareLocal name).2 (b.declareLocal name).2 := by
  unfold Scopes.declareLocal
  cases h with
  | nil => exact .nil
  | @cons s t outer outer' first rest =>
    dsimp only
    rw [first.locals]
    cases t.locals.lookup (Text.fold name) with
    | some index => exact .cons first rest
    | none =>
      have grown := allocate (.cons first rest) (s.variableOf (Text.fold name))
        (t.variableOf (Text.fold name))
      revert grown
      generalize Scopes.allocate (s.variableOf (Text.fold name)) (s :: outer) = left
      generalize Scopes.allocate (t.variableOf (Text.fold name)) (t :: outer') = right
      rintro ⟨index, grown⟩
      obtain ⟨_, _⟩ := left
      obtain ⟨_, _⟩ := right
      cases grown with
      | nil => exact .nil
      | cons first rest =>
        refine .cons ⟨first.kind, first.params, ?_, first.size, first.returnLabel?⟩ rest
        exact congrArg₂ (fun i bound => (Text.fold name, i) :: bound) index first.locals

theorem declareGlobal (h : Alike a b) (name : String) :
    Alike (a.declareGlobal name).2 (b.declareGlobal name).2 := by
  induction h with
  | nil => exact .nil
  | cons first rest ih =>
    cases rest with
    | nil => exact declareLocal (.cons first .nil) name
    | cons _ _ => exact .cons first ih

theorem loopLabel? (h : Alike a b) : a.loopLabel? = b.loopLabel? := by
  cases h with
  | nil => rfl
  | cons first _ => rw [Scopes.loopLabel?, Scopes.loopLabel?, first.kind]

theorem inFunction (h : Alike a b) : a.inFunction = b.inFunction := by
  unfold Scopes.inFunction
  induction h with
  | nil => rfl
  | cons first _ ih => rw [List.any_cons, List.any_cons, ih, first.kind]

theorem atModule (h : Alike a b) : a.atModule = b.atModule := by
  unfold Scopes.atModule
  cases h with
  | nil => rfl
  | cons first _ =>
    rw [List.head?_cons, List.head?_cons, Option.map_some, Option.map_some, first.kind]

theorem returnLabel? (h : Alike a b) : a.returnLabel? = b.returnLabel? := by
  unfold Scopes.returnLabel?
  induction h with
  | nil => rfl
  | @cons s t _ _ first _ ih =>
    rw [List.find?_cons, List.find?_cons, first.kind]
    split
    · exact first.returnLabel?
    · exact ih

theorem setReturnLabel (h : Alike a b) (label : Label) :
    Alike (Scopes.setReturnLabel label a) (Scopes.setReturnLabel label b) := by
  induction h with
  | nil => exact .nil
  | @cons s t _ _ first rest ih =>
    rw [Scopes.setReturnLabel, Scopes.setReturnLabel, first.kind]
    split
    · exact .cons ⟨rfl, first.params, first.locals, first.size, rfl⟩ rest
    · exact .cons first ih

end Alike

end Scopes

namespace Compile

/-! ## Parallel steps -/

/-- Workspaces that differ in owners at most. -/
structure Workspace.Alike (w v : Workspace) : Prop where
  labels : w.labels = v.labels
  requests : w.requests = v.requests
  scopes : w.scopes.Alike v.scopes

/-- Two steps have ended alike. -/
inductive EndAlike {α β : Type} (R : α → β → Prop) :
    Except CompileError α × Workspace → Except CompileError β × Workspace → Prop where
  | ok {a : α} {b : β} {w v : Workspace} : R a b → w.Alike v → EndAlike R (.ok a, w) (.ok b, v)
  | error {d e : CompileError} {w v : Workspace} : w.Alike v → EndAlike R (.error d, w) (.error e, v)

/-- **Two steps in parallel** end alike where they begin alike. -/
def Parallel {α β : Type} (R : α → β → Prop) (first : Step α) (second : Step β) : Prop :=
  ∀ ⦃w v : Workspace⦄, w.Alike v → EndAlike R (first.run w) (second.run v)

/-- Nothing is known of two results. -/
def Any {α β : Type} (_ : α) (_ : β) : Prop := True

namespace Parallel

variable {α β γ δ : Type} {R : α → β → Prop} {S : γ → δ → Prop}

theorem bind {first : Step α} {second : Step β} {next : α → Step γ} {other : β → Step δ}
    (h : Parallel R first second) (k : ∀ a b, R a b → Parallel S (next a) (other b)) :
    Parallel S (first >>= next) (second >>= other) := by
  intro w v alike
  have ended := h alike
  rw [run_bind, run_bind]
  revert ended
  generalize first.run w = left
  generalize second.run v = right
  rintro (⟨related, alike⟩ | alike)
  · exact k _ _ related alike
  · exact .error alike

theorem pure {a : α} {b : β} (related : R a b) : Parallel R (Pure.pure a) (Pure.pure b) :=
  fun _ _ alike => .ok related alike

theorem refuse (places : Places) (cause cause' : CompileError.Cause) (span span' : Span) :
    Parallel R (Compile.refuse places cause span) (Compile.refuse places cause' span') :=
  fun _ _ alike => .error alike

theorem freshLabel : Parallel Eq Compile.freshLabel Compile.freshLabel :=
  fun _ _ alike => .ok (congrArg Label.mk alike.labels)
    ⟨congrArg (· + 1) alike.labels, alike.requests, alike.scopes⟩

theorem freshOwner : Parallel Any Compile.freshOwner Compile.freshOwner :=
  fun _ _ alike => .ok trivial ⟨alike.labels, alike.requests, alike.scopes⟩

theorem request (s : Signature) : Parallel Any (Compile.request s) (Compile.request s) :=
  fun _ _ alike => .ok trivial ⟨alike.labels, congrArg (s :: ·) alike.requests, alike.scopes⟩

theorem scopes : Parallel Scopes.Alike Compile.scopes Compile.scopes :=
  fun _ _ alike => .ok alike.scopes alike

theorem changeScopes {f : Scopes → α × Scopes} {g : Scopes → β × Scopes}
    (kept : ∀ a b : Scopes, a.Alike b → (f a).2.Alike (g b).2) :
    Parallel Any (Compile.changeScopes f) (Compile.changeScopes g) :=
  fun _ _ alike => .ok trivial ⟨alike.labels, alike.requests, kept _ _ alike.scopes⟩

theorem push {s t : Scope} (alike : s.Alike t) : Parallel Any (Compile.push s) (Compile.push t) :=
  changeScopes fun _ _ around => .cons alike around

theorem pop : Parallel Any Compile.pop Compile.pop := by
  refine changeScopes fun _ _ around => ?_
  cases around with
  | nil => exact .nil
  | cons _ rest => exact rest

theorem operation (position : Position) (s : Signature) (operands others : List Code) :
    Parallel Any (Compile.operation position s operands) (Compile.operation position s others) :=
  (request s).bind fun _ _ _ => pure trivial

theorem returnLabel : Parallel Any Compile.returnLabel Compile.returnLabel := by
  refine scopes.bind fun a b alike => ?_
  rw [alike.returnLabel?]
  split
  · exact pure trivial
  · refine freshLabel.bind ?_
    rintro label _ rfl
    exact (changeScopes fun _ _ around => around.setReturnLabel label).bind fun _ _ _ => pure trivial

theorem template (name : String) (params : List String) (body other : Code) :
    Parallel Any (Compile.template name params body) (Compile.template name params other) :=
  scopes.bind fun _ _ _ => pop.bind fun _ _ _ => pure trivial

end Parallel

/-! ## Nodes -/

/-- Compiling a node goes on in parallel, whatever the owners. -/
def SteadyNode (places : Places) (tree : Node) : Prop :=
  Parallel Any (node places tree) (node places tree)

/-- Compiling nodes goes on in parallel, and yields one code for each. -/
def SteadyNodes (places : Places) (trees : List Node) : Prop :=
  Parallel (fun codes others => codes.length = others.length) (nodes places trees)
    (nodes places trees)

/-- Compiling tests and bodies goes on in parallel. -/
def SteadyArms (places : Places) (trees : List (Node × Node)) : Prop :=
  Parallel Any (arms places trees) (arms places trees)

section

variable {places : Places} {span inner : Span} {name : String} {target value body : Node}
  {trees args : List Node}

/-! ### Lists of nodes -/

theorem steady_nil : SteadyNodes places [] := by
  unfold SteadyNodes
  rw [nodes]
  exact .pure rfl

theorem steady_cons {first : Node} (one : SteadyNode places first)
    (rest : SteadyNodes places trees) : SteadyNodes places (first :: trees) := by
  unfold SteadyNodes
  rw [nodes]
  exact one.bind fun _ _ _ => rest.bind fun _ _ same => .pure (congrArg (· + 1) same)

theorem steady_noArms : SteadyArms places [] := by
  unfold SteadyArms
  rw [arms]
  exact .pure trivial

theorem steady_arm {test : Node} {rest : List (Node × Node)} (first : SteadyNode places test)
    (second : SteadyNode places body) (others : SteadyArms places rest) :
    SteadyArms places ((test, body) :: rest) := by
  unfold SteadyArms
  rw [arms]
  exact first.bind fun _ _ _ => second.bind fun _ _ _ => others.bind fun _ _ _ => .pure trivial

/-! ### Operations -/

/-- An operation on a node and a list of nodes. -/
theorem steady_operations {position : Position} {s : Nat → Signature}
    (first : SteadyNode places target) (others : SteadyNodes places args) :
    let step : Step Code := do
      let target ← node places target
      let operands ← nodes places args
      operation position (s operands.length) (target :: operands)
    Parallel Any step step :=
  first.bind fun _ _ _ => others.bind fun _ _ same => by
    rw [same]
    exact .operation _ _ _ _

theorem steady_named : SteadyNode places (.named span name) := by
  unfold SteadyNode
  rw [node]
  refine Parallel.scopes.bind fun a b around => ?_
  obtain ⟨left, right⟩ | ⟨_, _, left, right⟩ := around.find? name <;> rw [left, right]
  · exact .operation _ _ _ _
  · exact .pure trivial

theorem steady_create (first : SteadyNode places target) (others : SteadyNodes places args) :
    SteadyNode places (.create span target args) := by
  unfold SteadyNode
  rw [node]
  exact (Parallel.request _).bind fun _ _ _ => first.bind fun _ _ _ => others.bind fun _ _ _ =>
    .pure trivial

theorem steady_callName (others : SteadyNodes places args) :
    SteadyNode places (.call span (.named inner name) args) := by
  unfold SteadyNode
  rw [node]
  refine Parallel.scopes.bind fun a b around => ?_
  obtain ⟨left, right⟩ | ⟨_, _, left, right⟩ := around.find? name <;> rw [left, right]
  all_goals
    refine others.bind fun _ _ same => ?_
    rw [same]
    exact .operation _ _ _ _

/-- Whether what a callee yields is called, as it is neither a member nor a name. -/
def IsValueCallee : Node → Prop
  | .member _ _ _ _ | .named _ _ => False
  | _ => True

theorem steady_callOther (first : SteadyNode places target) (others : SteadyNodes places args)
    (h : IsValueCallee target) : SteadyNode places (.call span target args) := by
  unfold SteadyNode
  rw [node]
  · exact steady_operations first others
  · rintro span object name kind rfl
    exact h
  · rintro span name rfl
    exact h

/-! ### Variables -/

theorem steady_declare : SteadyNode places (.declare span name none) := by
  unfold SteadyNode
  rw [node]
  exact (Parallel.changeScopes fun _ _ around => around.declareLocal name).bind fun _ _ _ =>
    .pure trivial

theorem steady_initialized (h : SteadyNode places value) :
    SteadyNode places (.declare span name (some value)) := by
  unfold SteadyNode
  rw [node]
  exact h.bind fun _ _ _ =>
    (Parallel.changeScopes fun _ _ around => around.declareLocal name).bind fun _ _ _ =>
      .pure trivial

theorem steady_assignName (h : SteadyNode places value) :
    SteadyNode places (.assign span (.named inner name) value) := by
  unfold SteadyNode
  rw [node]
  refine h.bind fun _ _ _ => Parallel.scopes.bind fun a b around => ?_
  obtain ⟨left, right⟩ | ⟨_, _, left, right⟩ := around.find? name <;> rw [left, right]
  · exact (Parallel.changeScopes fun _ _ around => around.declareGlobal name).bind fun _ _ _ =>
      .pure trivial
  · exact .pure trivial

/-- What cannot be assigned to is refused. -/
theorem steady_assignOther (h : target.isAssignable = false) :
    SteadyNode places (.assign span target value) := by
  unfold SteadyNode
  cases target with
  | named _ _ => cases h
  | member _ _ _ _ => cases h
  | index _ _ _ => cases h
  | _ =>
    rw [node]
    · exact .refuse _ _ _ _ _
    all_goals simp

/-! ### Functions -/

theorem steady_function {params : List String} (h : SteadyNode places body) :
    SteadyNode places (.function span name params body) := by
  unfold SteadyNode
  rw [node]
  refine Parallel.scopes.bind fun a b around => ?_
  rw [around.atModule]
  split
  · exact Parallel.freshOwner.bind fun o p _ => (Parallel.push (.function o p params)).bind
      fun _ _ _ => h.bind fun _ _ _ => (Parallel.template _ _ _ _).bind fun _ _ _ =>
        .operation _ _ _ _
  · exact .refuse _ _ _ _ _

theorem steady_lambda {params : List String} (h : SteadyNode places body) :
    SteadyNode places (.lambda span params body) := by
  unfold SteadyNode
  rw [node]
  exact Parallel.freshOwner.bind fun o p _ => (Parallel.push (.function o p params)).bind
    fun _ _ _ => Parallel.returnLabel.bind fun _ _ _ => h.bind fun _ _ _ =>
      (Parallel.template _ _ _ _).bind fun _ _ _ => .pure trivial

/-! ### Choices, loops and jumps -/

theorem steady_choose {branches : List (Node × Node)} (h : SteadyArms places branches) :
    SteadyNode places (.choose span branches none) := by
  unfold SteadyNode
  rw [node]
  exact h.bind fun _ _ _ => .pure trivial

theorem steady_chooseElse {branches : List (Node × Node)} (h : SteadyArms places branches)
    (last : SteadyNode places body) : SteadyNode places (.choose span branches (some body)) := by
  unfold SteadyNode
  rw [node]
  exact h.bind fun _ _ _ => last.bind fun _ _ _ => .pure trivial

theorem steady_loop (h : SteadyNode places body) : SteadyNode places (.loop span body) := by
  unfold SteadyNode
  rw [node]
  refine Parallel.freshLabel.bind ?_
  rintro label _ rfl
  exact Parallel.scopes.bind fun _ _ _ => (Parallel.push (.loop _ _ label)).bind fun _ _ _ =>
    h.bind fun _ _ _ => Parallel.pop.bind fun _ _ _ => .pure trivial

theorem steady_leave : SteadyNode places (.leave span none) := by
  unfold SteadyNode
  rw [node]
  refine Parallel.scopes.bind fun a b around => ?_
  rw [around.loopLabel?]
  split
  · exact .pure trivial
  · exact .refuse _ _ _ _ _

theorem steady_leaveWith (h : SteadyNode places value) :
    SteadyNode places (.leave span (some value)) := by
  unfold SteadyNode
  rw [node]
  refine Parallel.scopes.bind fun a b around => ?_
  rw [around.loopLabel?]
  split
  · exact h.bind fun _ _ _ => .pure trivial
  · exact .refuse _ _ _ _ _

theorem steady_give : SteadyNode places (.give span none) := by
  unfold SteadyNode
  rw [node]
  refine Parallel.scopes.bind fun a b around => ?_
  rw [around.inFunction]
  split
  · exact Parallel.returnLabel.bind fun _ _ _ => .pure trivial
  · exact .refuse _ _ _ _ _

theorem steady_giveBack (h : SteadyNode places value) :
    SteadyNode places (.give span (some value)) := by
  unfold SteadyNode
  rw [node]
  refine Parallel.scopes.bind fun a b around => ?_
  rw [around.inFunction]
  split
  · exact Parallel.returnLabel.bind fun _ _ _ => h.bind fun _ _ _ => .pure trivial
  · exact .refuse _ _ _ _ _

theorem steady_importFrom {path : List String} {renamed : Option String} :
    SteadyNode places (.importFrom span path renamed) := by
  unfold SteadyNode
  rw [node]
  refine Parallel.scopes.bind fun a b around => ?_
  rw [around.atModule]
  split
  · exact .pure trivial
  · exact .refuse _ _ _ _ _

end

/-! ### Trees -/

variable (places : Places)

mutual

/-- **Compiling a tree goes on in parallel**, whatever the owners. -/
theorem steady_node : ∀ tree, SteadyNode places tree
  | .literal _ _ => by
    unfold SteadyNode
    rw [node]
    exact .pure trivial
  | .named _ _ => steady_named
  | .member _ target _ _ => by
    unfold SteadyNode
    rw [node]
    exact (steady_node target).bind fun _ _ _ => .operation _ _ _ _
  | .index _ target index => by
    unfold SteadyNode
    rw [node]
    exact (steady_node target).bind fun _ _ _ => (steady_node index).bind fun _ _ _ =>
      .operation _ _ _ _
  | .binary _ _ left right => by
    unfold SteadyNode
    rw [node]
    exact (steady_node left).bind fun _ _ _ => (steady_node right).bind fun _ _ _ =>
      .operation _ _ _ _
  | .unary _ _ operand => by
    unfold SteadyNode
    rw [node]
    exact (steady_node operand).bind fun _ _ _ => .operation _ _ _ _
  | .assign _ target value => by
    have last := steady_node value
    cases target with
    | named _ _ => exact steady_assignName last
    | member _ object _ _ =>
      unfold SteadyNode
      rw [node]
      exact (steady_node object).bind fun _ _ _ => last.bind fun _ _ _ => .operation _ _ _ _
    | index _ object index =>
      unfold SteadyNode
      rw [node]
      exact (steady_node object).bind fun _ _ _ => (steady_node index).bind fun _ _ _ =>
        last.bind fun _ _ _ => .operation _ _ _ _
    | _ => exact steady_assignOther rfl
  | .call _ callee args => by
    have first := steady_node callee
    have others := steady_nodes args
    cases callee with
    | member _ object _ _ =>
      unfold SteadyNode
      rw [node]
      exact steady_operations (steady_node object) others
    | named _ _ => exact steady_callName others
    | _ => exact steady_callOther first others trivial
  | .create _ target args => steady_create (steady_node target) (steady_nodes args)
  | .declare _ _ none => steady_declare
  | .declare _ _ (some value) => steady_initialized (steady_node value)
  | .function _ _ _ body => steady_function (steady_node body)
  | .lambda _ _ body => steady_lambda (steady_node body)
  | .choose _ branches none => steady_choose (steady_arms branches)
  | .choose _ branches (some body) => steady_chooseElse (steady_arms branches) (steady_node body)
  | .loop _ body => steady_loop (steady_node body)
  | .leave _ none => steady_leave
  | .leave _ (some value) => steady_leaveWith (steady_node value)
  | .give _ none => steady_give
  | .give _ (some value) => steady_giveBack (steady_node value)
  | .importFrom _ _ _ => steady_importFrom
  | .block _ statements => by
    unfold SteadyNode
    rw [node]
    exact (steady_nodes statements).bind fun _ _ _ => .pure trivial
  | .plain _ expression => by
    unfold SteadyNode
    rw [node]
    exact steady_node expression
  | .empty _ => by
    unfold SteadyNode
    rw [node]
    exact .pure trivial

theorem steady_nodes : ∀ trees, SteadyNodes places trees
  | [] => steady_nil
  | first :: rest => steady_cons (steady_node first) (steady_nodes rest)

theorem steady_arms : ∀ trees, SteadyArms places trees
  | [] => steady_noArms
  | (test, body) :: rest => steady_arm (steady_node test) (steady_node body) (steady_arms rest)

end

end Compile

/-- **What a source requests does not depend on its number**, nor on what else has been compiled. -/
theorem requests_compile_eq (number other : Nat) (source : List Char) (tree : Node) :
    (compile number source tree).2 = (compile other source tree).2 := by
  have start : Compile.Workspace.Alike ⟨0, ⟨number, 1⟩, [], [.module ⟨number, 0⟩]⟩
      ⟨0, ⟨other, 1⟩, [], [.module ⟨other, 0⟩]⟩ :=
    ⟨rfl, rfl, .cons ⟨rfl, rfl, rfl, rfl, rfl⟩ .nil⟩
  have ended := Compile.steady_node (fun span => (LineIndex.ofSource source).position span.start)
    tree start
  unfold compile
  dsimp only
  revert ended
  generalize (Compile.node _ tree).run ⟨0, ⟨number, 1⟩, [], [.module ⟨number, 0⟩]⟩ = left
  generalize (Compile.node _ tree).run ⟨0, ⟨other, 1⟩, [], [.module ⟨other, 0⟩]⟩ = right
  rintro (⟨-, alike⟩ | alike) <;> exact congrArg List.reverse alike.requests

end HostScript
