import HostScript.Proofs.Compile.Scopes
import HostScript.Proofs.Compile.Steps

/-!
# Proofs/Compile/Placement — which trees are programs

A construct stands in the bodies of functions, lambdas and loops around it.  `Node.constructs` lists
the constructs of a tree with these, each before its parts; `Node.WellPlaced` says of one of them that
it stands where it may, and `Node.fault?` what is wrong if it does not.

Compiling settles on the first fault of this list.  The scopes around the place being compiled have the
kinds of the bodies around it, which no operation on scopes changes, and so the questions that the
compiler asks about its scopes are the questions about bodies; `settles_node` follows the recursion of
the compiler with this.
-/

namespace HostScript

/-- What a construct can stand in the body of: a function or lambda, or a loop. -/
inductive Body where
  | function
  | loop
  deriving DecidableEq, Repr

namespace Node

mutual

/-- **A node and all constructs in it**, each before its parts and in the order in which they are
written, with the bodies around each, the innermost first. -/
@[simp] def constructs (around : List Body) : Node → List (List Body × Node)
  | .literal span value => [(around, .literal span value)]
  | .named span name => [(around, .named span name)]
  | .member span target name kind =>
    (around, .member span target name kind) :: constructs around target
  | .index span target place =>
    (around, .index span target place) :: (constructs around target ++ constructs around place)
  | .binary span op left right =>
    (around, .binary span op left right) :: (constructs around left ++ constructs around right)
  | .unary span op operand => (around, .unary span op operand) :: constructs around operand
  | .assign span target value =>
    (around, .assign span target value) :: (constructs around target ++ constructs around value)
  | .call span callee args =>
    (around, .call span callee args) :: (constructs around callee ++ constructsOf around args)
  | .create span target args =>
    (around, .create span target args) :: (constructs around target ++ constructsOf around args)
  | .declare span name none => [(around, .declare span name none)]
  | .declare span name (some value) =>
    (around, .declare span name (some value)) :: constructs around value
  | .function span name params body =>
    (around, .function span name params body) :: constructs (.function :: around) body
  | .lambda span params body =>
    (around, .lambda span params body) :: constructs (.function :: around) body
  | .choose span branches none =>
    (around, .choose span branches none) :: constructsOfArms around branches
  | .choose span branches (some otherwise) =>
    (around, .choose span branches (some otherwise)) ::
      (constructsOfArms around branches ++ constructs around otherwise)
  | .loop span body => (around, .loop span body) :: constructs (.loop :: around) body
  | .leave span none => [(around, .leave span none)]
  | .leave span (some value) => (around, .leave span (some value)) :: constructs around value
  | .give span none => [(around, .give span none)]
  | .give span (some value) => (around, .give span (some value)) :: constructs around value
  | .importFrom span path renamed => [(around, .importFrom span path renamed)]
  | .block span statements => (around, .block span statements) :: constructsOf around statements
  | .plain span expression => (around, .plain span expression) :: constructs around expression
  | .empty span => [(around, .empty span)]

/-- The constructs in nodes, in order. -/
@[simp] def constructsOf (around : List Body) : List Node → List (List Body × Node)
  | [] => []
  | first :: rest => constructs around first ++ constructsOf around rest

/-- The constructs in tests and bodies, in order. -/
@[simp] def constructsOfArms (around : List Body) : List (Node × Node) → List (List Body × Node)
  | [] => []
  | (test, body) :: rest =>
    constructs around test ++ (constructs around body ++ constructsOfArms around rest)

end

/-- **Whether a construct stands where it may**: a `return` in a function or lambda, a `break` in a loop
with no function or lambda in between, a function or an import in no body at all, and an assignment
before something that can be assigned to. -/
def WellPlaced (around : List Body) : Node → Prop
  | .give _ _ => .function ∈ around
  | .leave _ _ => ∃ inner outer, around = inner ++ .loop :: outer ∧ .function ∉ inner
  | .function _ _ _ _ | .importFrom _ _ _ => around = []
  | .assign _ target _ => target.isAssignable = true
  | _ => True

/-- What is wrong with a construct itself, and where. -/
def fault? (around : List Body) : Node → Option (CompileError.Cause × Span)
  | .give span _ => if .function ∈ around then none else some (.returnOutsideFunction, span)
  | .leave span _ => if around.head? = some .loop then none else some (.breakOutsideLoop, span)
  | .function span name _ _ => if around = [] then none else some (.nestedFunction name, span)
  | .importFrom span _ _ => if around = [] then none else some (.importOutsideModule, span)
  | .assign _ target _ => if target.isAssignable then none else some (.notAssignable, target.span)
  | _ => none

/-- What is wrong with the first construct that has a fault. -/
def firstFault? (constructs : List (List Body × Node)) : Option (CompileError.Cause × Span) :=
  constructs.findSome? fun c => c.2.fault? c.1

/-- The innermost body is a loop's just if there is a loop with no function in between. -/
theorem head?_eq_loop_iff {around : List Body} :
    around.head? = some .loop ↔ ∃ inner outer, around = inner ++ .loop :: outer ∧ .function ∉ inner := by
  constructor
  · intro innermost
    obtain ⟨outer, rfl⟩ := List.head?_eq_some_iff.1 innermost
    exact ⟨[], outer, rfl, List.not_mem_nil⟩
  · rintro ⟨inner, outer, rfl, between⟩
    cases inner with
    | nil => rfl
    | cons body inner =>
      cases body with
      | function => exact absurd List.mem_cons_self between
      | loop => rfl

/-- **A construct has no fault just if it stands where it may.** -/
theorem fault?_eq_none_iff {around : List Body} {tree : Node} :
    tree.fault? around = none ↔ tree.WellPlaced around := by
  cases tree with
  | give | function | importFrom | assign => simp [fault?, WellPlaced]
  | leave => simp [fault?, WellPlaced, head?_eq_loop_iff]
  | _ => simp [fault?, WellPlaced]

theorem firstFault?_eq_none_iff {constructs : List (List Body × Node)} :
    firstFault? constructs = none ↔ ∀ c ∈ constructs, c.2.WellPlaced c.1 := by
  unfold firstFault?
  rw [List.findSome?_eq_none_iff]
  exact forall₂_congr fun _ _ => fault?_eq_none_iff

theorem firstFault?_eq_some_iff {constructs : List (List Body × Node)}
    {fault : CompileError.Cause × Span} :
    firstFault? constructs = some fault ↔ ∃ before around tree after,
      constructs = before ++ (around, tree) :: after ∧ (∀ c ∈ before, c.2.WellPlaced c.1) ∧
        tree.fault? around = some fault := by
  unfold firstFault?
  rw [List.findSome?_eq_some_iff]
  constructor
  · rintro ⟨before, ⟨around, tree⟩, after, split, found, first⟩
    exact ⟨before, around, tree, after, split, fun c mem => fault?_eq_none_iff.1 (first c mem), found⟩
  · rintro ⟨before, around, tree, after, split, first, found⟩
    exact ⟨before, (around, tree), after, split, found, fun c mem => fault?_eq_none_iff.2 (first c mem)⟩

theorem firstFault?_cons (around : List Body) (tree : Node) (rest : List (List Body × Node)) :
    firstFault? ((around, tree) :: rest) = (tree.fault? around).or (firstFault? rest) := by
  unfold firstFault?
  rw [List.findSome?_cons]
  cases tree.fault? around <;> rfl

theorem firstFault?_append (first rest : List (List Body × Node)) :
    firstFault? (first ++ rest) = (firstFault? first).or (firstFault? rest) := List.findSome?_append

end Node

/-! ## The kinds of scopes -/

/-- The body that a scope is. -/
def ScopeKind.body? : ScopeKind → Option Body
  | .module => none
  | .function => some .function
  | .loop _ => some .loop

namespace Scopes

/-- **Scopes stand for bodies**: one for each, and the module around them all. -/
def Stand (scopes : Scopes) (around : List Body) : Prop :=
  scopes.map (·.kind.body?) = around.map some ++ [none]

variable {scopes : Scopes} {around : List Body}

theorem kinds_allocate (v : Variable) (scopes : Scopes) :
    (allocate v scopes).2.map (·.kind) = scopes.map (·.kind) := by
  induction scopes with
  | nil => rfl
  | cons s outer ih =>
    unfold allocate
    split
    · rfl
    · exact congrArg (s.kind :: ·) ih

theorem kinds_declareLocal (scopes : Scopes) (name : String) :
    (declareLocal scopes name).2.map (·.kind) = scopes.map (·.kind) := by
  cases scopes with
  | nil => rfl
  | cons s outer =>
    unfold declareLocal
    dsimp only
    split
    next => rfl
    next =>
      have kinds := kinds_allocate (s.variableOf (Text.fold name)) (s :: outer)
      obtain ⟨index, slots, rest, made⟩ := allocate_cons (s.variableOf (Text.fold name)) s outer
      rw [made] at kinds ⊢
      exact kinds

theorem kinds_declareGlobal (scopes : Scopes) (name : String) :
    (declareGlobal scopes name).2.map (·.kind) = scopes.map (·.kind) := by
  induction scopes with
  | nil => rfl
  | cons s outer ih =>
    cases outer with
    | nil => exact kinds_declareLocal [s] name
    | cons next outer => exact congrArg (s.kind :: ·) ih

theorem kinds_setReturnLabel (label : Label) (scopes : Scopes) :
    (setReturnLabel label scopes).map (·.kind) = scopes.map (·.kind) := by
  induction scopes with
  | nil => rfl
  | cons s outer ih =>
    unfold setReturnLabel
    split
    · rfl
    · exact congrArg (s.kind :: ·) ih

theorem Stand.congr {changed : Scopes} (h : scopes.Stand around)
    (kinds : changed.map (·.kind) = scopes.map (·.kind)) : changed.Stand around := by
  have bodies := congrArg (List.map ScopeKind.body?) kinds
  rw [List.map_map, List.map_map] at bodies
  exact bodies.trans h

/-- The scope of the innermost body comes first, and others stand for the bodies around it. -/
theorem Stand.cons {body : Body} (h : scopes.Stand (body :: around)) :
    ∃ s outer, scopes = s :: outer ∧ s.kind.body? = some body ∧ Stand outer around := by
  obtain ⟨s, outer, rfl, first, rest⟩ := List.map_eq_cons_iff.1 h
  exact ⟨s, outer, rfl, first, rest⟩

theorem Stand.nil (h : scopes.Stand []) : ∃ s, scopes = [s] ∧ s.kind.body? = none := by
  obtain ⟨s, outer, rfl, first, rest⟩ := List.map_eq_cons_iff.1 h
  obtain rfl := List.map_eq_nil_iff.1 rest
  exact ⟨s, rfl, first⟩

/-- A place is in a function just if one of the bodies around it is a function's. -/
theorem Stand.inFunction (h : scopes.Stand around) :
    scopes.inFunction = true ↔ .function ∈ around := by
  have functions : scopes.inFunction = true ↔ some .function ∈ scopes.map (·.kind.body?) := by
    unfold Scopes.inFunction
    rw [List.any_eq_true, List.mem_map]
    refine exists_congr fun s => and_congr_right fun _ => ?_
    rw [decide_eq_true_iff]
    cases s.kind <;> simp [ScopeKind.body?]
  rw [functions, h]
  simp

theorem Stand.atModule (h : scopes.Stand around) : scopes.atModule = true ↔ around = [] := by
  unfold Scopes.atModule
  rw [decide_eq_true_iff]
  cases around with
  | nil =>
    obtain ⟨s, rfl, kind⟩ := h.nil
    cases is_kind : s.kind <;> simp_all [ScopeKind.body?]
  | cons body around =>
    obtain ⟨s, outer, rfl, kind, -⟩ := h.cons
    cases is_kind : s.kind <;> simp_all [ScopeKind.body?]

/-- There is a label to leave a loop by just if the innermost body is a loop's. -/
theorem Stand.loopLabel? (h : scopes.Stand around) :
    (∃ label, scopes.loopLabel? = some label) ↔ around.head? = some .loop := by
  cases around with
  | nil =>
    obtain ⟨s, rfl, kind⟩ := h.nil
    unfold Scopes.loopLabel?
    cases is_kind : s.kind <;> simp_all [ScopeKind.body?]
  | cons body around =>
    obtain ⟨s, outer, rfl, kind, -⟩ := h.cons
    unfold Scopes.loopLabel?
    cases is_kind : s.kind <;> cases body <;> simp_all [ScopeKind.body?]

end Scopes

/-! ## Steps that settle on a fault -/

namespace Compile

/-- **A step settles on a fault**: if there is one, the step refuses with it, and else it succeeds.
It is taken in the first bodies and leaves the compiler in the second. -/
def Settles {α : Type} (places : Places) (fault? : Option (CompileError.Cause × Span))
    (around after : List Body) (step : Step α) : Prop :=
  ∀ w : Workspace, w.scopes.Stand around →
    match fault? with
    | none => ∃ a w', step.run w = (.ok a, w') ∧ w'.scopes.Stand after
    | some (cause, span) => ∃ w', step.run w = (.error ⟨cause, places span, span⟩, w')

namespace Settles

variable {α β : Type} {places : Places} {fault? more? : Option (CompileError.Cause × Span)}
  {around between after : List Body} {step : Step α} {rest : α → Step β}

/-- What is wrong with the first of two steps counts before what is wrong with the second. -/
theorem bind (first : Settles places fault? around between step)
    (next : ∀ a, Settles places more? between after (rest a)) :
    Settles places (fault?.or more?) around after (step >>= rest) := by
  intro w stands
  have here := first w stands
  cases fault? with
  | some fault =>
    obtain ⟨w', refused⟩ := here
    refine ⟨w', ?_⟩
    rw [run_bind, refused]
  | none =>
    obtain ⟨a, w', yields, stands⟩ := here
    rw [run_bind, yields]
    exact next a w' stands

/-- A step with nothing wrong before another. -/
theorem quiet_bind (first : Settles places none around between step)
    (next : ∀ a, Settles places more? between after (rest a)) :
    Settles places more? around after (step >>= rest) := first.bind next

/-- Nothing is wrong with the second of two steps. -/
theorem bind_quiet (first : Settles places fault? around between step)
    (next : ∀ a, Settles places none between after (rest a)) :
    Settles places fault? around after (step >>= rest) := by
  have both := first.bind next
  rwa [Option.or_none] at both

theorem pure (a : α) : Settles places none around around (pure a) :=
  fun w stands => ⟨a, w, rfl, stands⟩

theorem refuse (cause : CompileError.Cause) (span : Span) :
    Settles places (some (cause, span)) around after (refuse places cause span : Step α) :=
  fun w _ => ⟨w, rfl⟩

theorem freshLabel : Settles places none around around freshLabel :=
  fun _ stands => ⟨_, _, rfl, stands⟩

theorem freshOwner : Settles places none around around freshOwner :=
  fun _ stands => ⟨_, _, rfl, stands⟩

theorem request (s : Signature) : Settles places none around around (request s) :=
  fun _ stands => ⟨_, _, rfl, stands⟩

/-- What follows a look at the scopes sees scopes that stand for the bodies. -/
theorem scopes {rest : Scopes → Step β}
    (next : ∀ scopes : Scopes, scopes.Stand around → Settles places fault? around after (rest scopes)) :
    Settles places fault? around after (Compile.scopes >>= rest) := by
  intro w stands
  rw [run_bind]
  exact next w.scopes stands w stands

theorem changeScopes {f : Scopes → α × Scopes}
    (kinds : ∀ scopes : Scopes, (f scopes).2.map (·.kind) = scopes.map (·.kind)) :
    Settles places none around around (changeScopes f) :=
  fun w stands => ⟨_, _, rfl, stands.congr (kinds w.scopes)⟩

theorem push {s : Scope} {body : Body} (kind : s.kind.body? = some body) :
    Settles places none around (body :: around) (push s) :=
  fun _ stands => ⟨_, _, rfl, congrArg₂ List.cons kind stands⟩

theorem pop {body : Body} : Settles places none (body :: around) around pop := by
  intro w stands
  obtain ⟨s, outer, is_cons, -, rest⟩ := stands.cons
  refine ⟨_, _, rfl, ?_⟩
  show Scopes.Stand (w.scopes.drop 1) around
  rw [is_cons]
  exact rest

theorem operation (position : Position) (s : Signature) (operands : List Code) :
    Settles places none around around (operation position s operands) :=
  (request s).quiet_bind fun _ => pure _

theorem returnLabel : Settles places none around around returnLabel := by
  refine scopes fun found _ => ?_
  cases found.returnLabel? with
  | some label => exact pure label
  | none =>
    refine freshLabel.quiet_bind fun label => ?_
    exact (changeScopes (Scopes.kinds_setReturnLabel label)).quiet_bind fun _ => pure label

theorem template {body : Body} (name : String) (params : List String) (code : Code) :
    Settles places none (body :: around) around (template name params code) :=
  scopes fun _ _ => pop.quiet_bind fun _ => pure _

/-- A step that is taken under a condition and refused else. -/
theorem ite {condition : Prop} [Decidable condition] {cause : CompileError.Cause} {span : Span}
    (holds : condition → Settles places fault? around after step) :
    Settles places ((if condition then none else some (cause, span)).or fault?) around after
      (if condition then step else Compile.refuse places cause span) := by
  split
  next met => exact holds met
  next => exact refuse cause span

end Settles

end Compile

end HostScript
