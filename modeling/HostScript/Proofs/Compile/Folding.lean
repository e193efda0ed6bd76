import HostScript.Proofs.Compile.Bare

/-!
# Proofs/Compile/Folding — the case of names does not matter to compiling

A tree is folded by folding the names of its variables: those that are read, called or assigned, those that
`var` declares, and parameters.  Names of members, functions and imports are left as they are.

Scopes only ever see folded names, so the folded tree is compiled in the very same scopes, to the same code
but for positions and the names that lookups and bare calls carry: `echoes_node`, by recursion over the tree
with one lemma for each construct.  Trees that fold alike are therefore programs together, with
the same slots in the same places (`compile_alike_of_folded`).
-/

namespace HostScript

/-! ## Folding trees -/

namespace Node

mutual

/-- A tree with the names of its variables folded. -/
def folded : Node → Node
  | literal span value => .literal span value
  | named span name => .named span (Text.fold name)
  | member span target name kind => .member span (folded target) name kind
  | index span target place => .index span (folded target) (folded place)
  | binary span op left right => .binary span op (folded left) (folded right)
  | unary span op operand => .unary span op (folded operand)
  | assign span target value => .assign span (folded target) (folded value)
  | call span callee args => .call span (folded callee) (foldedAll args)
  | create span target args => .create span (folded target) (foldedAll args)
  | declare span name none => .declare span (Text.fold name) none
  | declare span name (some init) => .declare span (Text.fold name) (some (folded init))
  | function span name params body => .function span name (params.map Text.fold) (folded body)
  | lambda span params body => .lambda span (params.map Text.fold) (folded body)
  | choose span branches none => .choose span (foldedArms branches) none
  | choose span branches (some otherwise) => .choose span (foldedArms branches) (some (folded otherwise))
  | loop span body => .loop span (folded body)
  | leave span none => .leave span none
  | leave span (some value) => .leave span (some (folded value))
  | give span none => .give span none
  | give span (some value) => .give span (some (folded value))
  | importFrom span path renamed => .importFrom span path renamed
  | block span statements => .block span (foldedAll statements)
  | plain span expression => .plain span (folded expression)
  | empty span => .empty span

/-- Trees with the names of their variables folded. -/
def foldedAll : List Node → List Node
  | [] => []
  | first :: rest => folded first :: foldedAll rest

/-- Tests and bodies with the names of their variables folded. -/
def foldedArms : List (Node × Node) → List (Node × Node)
  | [] => []
  | (test, body) :: rest => (folded test, folded body) :: foldedArms rest

end

theorem length_foldedAll (trees : List Node) : (foldedAll trees).length = trees.length := by
  induction trees with
  | nil => rfl
  | cons _ _ ih => exact congrArg (· + 1) ih

end Node

/-! ## Folding code

Only the names that are looked up when the code runs are left in it. -/

/-- A signature with the name folded, if it is the name of a variable. -/
def Signature.folded (s : Signature) : Signature :=
  match s.operation with
  | .lookup | .call => { s with name := Text.fold s.name }
  | _ => s

namespace Code

mutual

/-- A code with the names of variables folded. -/
def folded : Code → Code
  | null => .null
  | constant value => .constant value
  | thisModule => .thisModule
  | read slot => .read slot
  | write slot value => .write slot (folded value)
  | dispatch position s operands => .dispatch position s.folded (foldedAll operands)
  | closure ⟨name, arity, layout, returnLabel?, body⟩ =>
    .closure ⟨name, arity, layout, returnLabel?, folded body⟩
  | choose branches otherwise => .choose (foldedArms branches) (folded otherwise)
  | loop label body => .loop label (folded body)
  | leave label value => .leave label (folded value)
  | give label value => .give label (folded value)
  | sequence codes => .sequence (foldedAll codes)
  | importAs position path name => .importAs position path name

/-- Codes with the names of variables folded. -/
def foldedAll : List Code → List Code
  | [] => []
  | code :: rest => folded code :: foldedAll rest

/-- Tests and bodies with the names of variables folded. -/
def foldedArms : List (Code × Code) → List (Code × Code)
  | [] => []
  | (test, body) :: rest => (folded test, folded body) :: foldedArms rest

end

/-- What is left of a code without its positions and without the case of the names it looks up. -/
def caseless (code : Code) : Code := code.unplaced.folded

/-- The same of codes. -/
def caselessAll (codes : List Code) : List Code := foldedAll (unplacedAll codes)

/-- The same of tests and bodies. -/
def caselessArms (branches : List (Code × Code)) : List (Code × Code) := foldedArms (unplacedArms branches)

theorem length_caselessAll (codes : List Code) : (caselessAll codes).length = codes.length := by
  induction codes with
  | nil => rfl
  | cons _ _ ih => exact congrArg (· + 1) ih

theorem caseless_inOrder (codes : List Code) :
    (Compile.inOrder codes).caseless = Compile.inOrder (caselessAll codes) := by
  match codes with
  | [] | [_] | _ :: _ :: _ => rfl

end Code

/-! ## Scopes see folded names only -/

namespace Scopes

@[simp] theorem find?_fold (scopes : Scopes) (name : String) :
    scopes.find? (Text.fold name) = scopes.find? name := by
  rw [find?, find?, Text.fold_fold]

@[simp] theorem declareLocal_fold (scopes : Scopes) (name : String) :
    scopes.declareLocal (Text.fold name) = scopes.declareLocal name := by
  simp only [declareLocal, Text.fold_fold]

@[simp] theorem declareGlobal_fold (name : String) : ∀ scopes : Scopes,
    scopes.declareGlobal (Text.fold name) = scopes.declareGlobal name
  | [] => rfl
  | [s] => declareLocal_fold [s] name
  | s :: next :: outer => by
    have inner := declareGlobal_fold name (next :: outer)
    unfold declareGlobal
    dsimp only
    rw [inner]

end Scopes

theorem Scope.paramSlots_fold (params : List String) :
    Scope.paramSlots (params.map Text.fold) = Scope.paramSlots params := by
  simp [Scope.paramSlots, List.zipIdx_map]

/-- A function's scope does not depend on the case of its parameters. -/
@[simp] theorem Scope.function_fold (owner : Owner) (params : List String) :
    Scope.function owner (params.map Text.fold) = Scope.function owner params := by
  rw [Scope.function, Scope.function, Scope.paramSlots_fold, List.map_map]
  simp [Function.comp_def]

/-! ## Steps that echo others -/

/-- An error without its position. -/
def CompileError.unplaced (e : CompileError) : CompileError := { e with position := .nowhere }

namespace Compile

/-- A workspace with the names of variables folded in what has been requested. -/
def Workspace.folded (w : Workspace) : Workspace := { w with requests := w.requests.map Signature.folded }

/-- What a step comes to, without positions and without the case of names. -/
def caseless {α β : Type} (f : α → β) :
    Except CompileError α × Workspace → Except CompileError β × Workspace
  | (.ok a, w) => (.ok (f a), w.folded)
  | (.error e, w) => (.error e.unplaced, w.folded)

/-- **A step that does in folded workspaces what another does**, without positions and without the case of
names. -/
def Echoes {α β : Type} (f : α → β) (step : Step α) (other : Step β) : Prop :=
  ∀ w : Workspace, other.run w.folded = caseless f (step.run w)

namespace Echoes

variable {α β γ δ : Type} {f : α → β} {g : γ → δ}

theorem pure (a : α) : Echoes f (pure a) (pure (f a)) := fun _ => rfl

/-- One step after another. -/
theorem bind {step : Step α} {other : Step β} {rest : α → Step γ} {others : β → Step δ}
    (first : Echoes f step other) (next : ∀ a, Echoes g (rest a) (others (f a))) :
    Echoes g (step >>= rest) (other >>= others) := by
  intro w
  rw [run_bind, run_bind, first w]
  cases step.run w with
  | mk result between =>
    cases result with
    | error e => rfl
    | ok a => exact next a between

/-- What a step that reads the scopes does depends on them alone. -/
theorem ask {rest : Scopes → Step γ} {others : Scopes → Step δ}
    (next : ∀ around, Echoes g (rest around) (others around)) :
    Echoes g (scopes >>= rest) (scopes >>= others) := by
  have first : Echoes id scopes scopes := fun _ => rfl
  exact first.bind next

theorem changeScopes {change other : Scopes → α × Scopes}
    (same : ∀ scopes, other scopes = change scopes) :
    Echoes id (changeScopes change) (changeScopes other) := by
  obtain rfl : other = change := funext same
  exact fun _ => rfl

theorem push {s other : Scope} (same : other = s) : Echoes id (push s) (push other) :=
  changeScopes fun scopes => by rw [same]

theorem pop : Echoes id pop pop := changeScopes fun _ => rfl

theorem freshLabel : Echoes id freshLabel freshLabel := fun _ => rfl

theorem freshOwner : Echoes id freshOwner freshOwner := fun _ => rfl

theorem request (s : Signature) : Echoes id (request s) (request s.folded) := fun _ => rfl

theorem refuse (places : Places) (cause : CompileError.Cause) (span : Span) :
    Echoes f (refuse places cause span) (refuse nowhere cause span) := fun _ => rfl

theorem operation (position : Position) (s : Signature) (operands : List Code) :
    Echoes Code.caseless (operation position s operands)
      (operation .nowhere s.folded (Code.caselessAll operands)) :=
  (request s).bind fun _ => pure (f := Code.caseless) (.dispatch position s operands)

/-- A call of a value with operands. -/
theorem invoke {callee other : Step Code} {args others : Step (List Code)} (position : Position)
    (first : Echoes Code.caseless callee other) (rest : Echoes Code.caselessAll args others) :
    Echoes Code.caseless
      (callee >>= fun callee => args >>= fun operands =>
        Compile.operation position (.invoke operands.length) (callee :: operands))
      (other >>= fun callee => others >>= fun operands =>
        Compile.operation .nowhere (.invoke operands.length) (callee :: operands)) := by
  refine first.bind fun callee => rest.bind fun operands => ?_
  rw [Code.length_caselessAll]
  exact operation position (.invoke operands.length) (callee :: operands)

theorem returnLabel : Echoes id returnLabel returnLabel := by
  refine ask fun around => ?_
  split
  next label _ => exact pure (f := id) label
  next =>
    refine freshLabel.bind fun label => ?_
    exact (changeScopes fun _ => rfl).bind fun _ => pure (f := id) label

theorem template (name : String) (params : List String) (body : Code) :
    Echoes (fun t => { t with body := t.body.caseless }) (template name params body)
      (template name (params.map Text.fold) body.caseless) := by
  refine ask fun inside => pop.bind fun _ => ?_
  rw [List.length_map]
  exact pure _

end Echoes

/-! ## Constructs -/

/-- **A tree that is compiled to what another is compiled to**, without positions and without the case of
names. -/
def EchoesNode (places : Places) (tree other : Node) : Prop :=
  Echoes Code.caseless (node places tree) (node nowhere other)

/-- Trees that are compiled to what others are compiled to. -/
def EchoesNodes (places : Places) (trees others : List Node) : Prop :=
  Echoes Code.caselessAll (nodes places trees) (nodes nowhere others)

/-- Tests and bodies that are compiled to what others are compiled to. -/
def EchoesArms (places : Places) (branches others : List (Node × Node)) : Prop :=
  Echoes Code.caselessArms (arms places branches) (arms nowhere others)

section

variable {places : Places} {span inner : Span} {name : String} {params : List String}
  {body body' target target' place place' value value' : Node} {args args' : List Node}

/-! ### Names -/

theorem echoes_named : EchoesNode places (.named span name) (.named span (Text.fold name)) := by
  unfold EchoesNode
  rw [node, node]
  refine .ask fun around => ?_
  rw [Scopes.find?_fold]
  cases around.find? name with
  | some slot => exact .pure (f := Code.caseless) (.read slot)
  | none => exact .operation _ (.lookup name) []

theorem echoes_assignName (last : EchoesNode places value value') :
    EchoesNode places (.assign span (.named inner name) value)
      (.assign span (.named inner (Text.fold name)) value') := by
  unfold EchoesNode
  rw [node, node]
  refine last.bind fun value => .ask fun around => ?_
  rw [Scopes.find?_fold]
  cases around.find? name with
  | some slot => exact .pure (f := Code.caseless) (.write slot value)
  | none =>
    refine (Echoes.changeScopes fun scopes => scopes.declareGlobal_fold name).bind fun slot => ?_
    exact .pure (f := Code.caseless) (.write slot value)

theorem echoes_declare :
    EchoesNode places (.declare span name none) (.declare span (Text.fold name) none) := by
  unfold EchoesNode
  rw [node, node]
  refine (Echoes.changeScopes fun scopes => scopes.declareLocal_fold name).bind fun _ => ?_
  exact .pure (f := Code.caseless) .null

theorem echoes_initialized (h : EchoesNode places value value') :
    EchoesNode places (.declare span name (some value))
      (.declare span (Text.fold name) (some value')) := by
  unfold EchoesNode
  rw [node, node]
  refine h.bind fun value => ?_
  refine (Echoes.changeScopes fun scopes => scopes.declareLocal_fold name).bind fun slot => ?_
  exact .pure (f := Code.caseless) (.write slot value)

/-! ### Operations -/

theorem echoes_assignMember {kind : MemberKind} (first : EchoesNode places target target')
    (last : EchoesNode places value value') :
    EchoesNode places (.assign span (.member inner target name kind) value)
      (.assign span (.member inner target' name kind) value') := by
  unfold EchoesNode
  rw [node, node]
  exact first.bind fun object => last.bind fun value => .operation _ (.setMember name) [object, value]

theorem echoes_assignIndex (first : EchoesNode places target target')
    (between : EchoesNode places place place') (last : EchoesNode places value value') :
    EchoesNode places (.assign span (.index inner target place) value)
      (.assign span (.index inner target' place') value') := by
  unfold EchoesNode
  rw [node, node]
  exact first.bind fun object => between.bind fun place => last.bind fun value =>
    .operation _ .setIndex [object, place, value]

theorem echoes_callName (others : EchoesNodes places args args') :
    EchoesNode places (.call span (.named inner name) args)
      (.call span (.named inner (Text.fold name)) args') := by
  unfold EchoesNode
  rw [node, node]
  refine .ask fun around => ?_
  rw [Scopes.find?_fold]
  cases around.find? name with
  | some slot =>
    refine others.bind fun operands => ?_
    rw [Code.length_caselessAll]
    exact .operation _ (.invoke operands.length) (.read slot :: operands)
  | none =>
    refine others.bind fun operands => ?_
    rw [Code.length_caselessAll]
    exact .operation _ (.call name operands.length) operands

theorem echoes_callMember {kind : MemberKind} (first : EchoesNode places target target')
    (others : EchoesNodes places args args') :
    EchoesNode places (.call span (.member inner target name kind) args)
      (.call span (.member inner target' name kind) args') := by
  unfold EchoesNode
  rw [node, node]
  refine first.bind fun object => others.bind fun operands => ?_
  rw [Code.length_caselessAll]
  exact .operation _ (.invokeMember name operands.length) (object :: operands)

theorem echoes_create (first : EchoesNode places target target') (others : EchoesNodes places args args')
    (same : args'.length = args.length) :
    EchoesNode places (.create span target args) (.create span target' args') := by
  unfold EchoesNode
  rw [node, node, same]
  refine (Echoes.request _).bind fun _ => first.bind fun target => others.bind fun operands => ?_
  exact .pure (f := Code.caseless) (.dispatch _ _ (target :: operands))

/-! ### Functions -/

theorem echoes_function (h : EchoesNode places body body') :
    EchoesNode places (.function span name params body)
      (.function span name (params.map Text.fold) body') := by
  unfold EchoesNode
  rw [node, node]
  refine .ask fun around => ?_
  split
  next =>
    refine Echoes.freshOwner.bind fun owner => ?_
    refine (Echoes.push (Scope.function_fold owner params)).bind fun _ => ?_
    refine h.bind fun body => (Echoes.template name params body).bind fun template => ?_
    exact .operation _ (.setMember name) [.thisModule, .closure template]
  next => exact .refuse places _ span

theorem echoes_lambda (h : EchoesNode places body body') :
    EchoesNode places (.lambda span params body) (.lambda span (params.map Text.fold) body') := by
  unfold EchoesNode
  rw [node, node]
  refine Echoes.freshOwner.bind fun owner => ?_
  refine (Echoes.push (Scope.function_fold owner params)).bind fun _ => ?_
  refine Echoes.returnLabel.bind fun _ => h.bind fun body => ?_
  refine (Echoes.template "lambda" params body).bind fun template => ?_
  exact .pure (f := Code.caseless) (.closure template)

theorem echoes_give : EchoesNode places (.give span none) (.give span none) := by
  unfold EchoesNode
  rw [node, node]
  refine .ask fun around => ?_
  split
  next => exact Echoes.returnLabel.bind fun label => .pure (f := Code.caseless) (.give label (.constant _))
  next => exact .refuse places _ span

theorem echoes_giveBack (h : EchoesNode places value value') :
    EchoesNode places (.give span (some value)) (.give span (some value')) := by
  unfold EchoesNode
  rw [node, node]
  refine .ask fun around => ?_
  split
  next =>
    exact Echoes.returnLabel.bind fun label => h.bind fun value =>
      .pure (f := Code.caseless) (.give label value)
  next => exact .refuse places _ span

/-! ### Loops and imports -/

theorem echoes_loop (h : EchoesNode places body body') :
    EchoesNode places (.loop span body) (.loop span body') := by
  unfold EchoesNode
  rw [node, node]
  refine Echoes.freshLabel.bind fun label => .ask fun around => ?_
  refine (Echoes.push rfl).bind fun _ => h.bind fun body => ?_
  exact Echoes.pop.bind fun _ => .pure (f := Code.caseless) (.loop label body)

theorem echoes_leave : EchoesNode places (.leave span none) (.leave span none) := by
  unfold EchoesNode
  rw [node, node]
  refine .ask fun around => ?_
  split
  next label _ => exact .pure (f := Code.caseless) (.leave label .null)
  next => exact .refuse places _ span

theorem echoes_leaveWith (h : EchoesNode places value value') :
    EchoesNode places (.leave span (some value)) (.leave span (some value')) := by
  unfold EchoesNode
  rw [node, node]
  refine .ask fun around => ?_
  split
  next label _ => exact h.bind fun value => .pure (f := Code.caseless) (.leave label value)
  next => exact .refuse places _ span

theorem echoes_importFrom {path : List String} {renamed : Option String} :
    EchoesNode places (.importFrom span path renamed) (.importFrom span path renamed) := by
  unfold EchoesNode
  rw [node, node]
  refine .ask fun around => ?_
  split
  next => exact .pure (f := Code.caseless) (.importAs _ path _)
  next => exact .refuse places _ span

end

/-! ## Trees -/

section

variable (places : Places)

mutual

/-- **A folded tree is compiled to what the tree is compiled to**, without positions and without the case of
names: by recursion over the tree, with the rule for each construct. -/
theorem echoes_node : ∀ tree : Node, EchoesNode places tree tree.folded
  | .literal _ value => .pure (f := Code.caseless) (.constant value)
  | .empty _ => .pure (f := Code.caseless) .null
  | .plain _ expression => by
    unfold EchoesNode
    rw [Node.folded, node, node]
    exact echoes_node expression
  | .block _ statements => by
    unfold EchoesNode
    rw [Node.folded, node, node]
    refine (echoes_nodes statements).bind fun codes => ?_
    rw [← Code.caseless_inOrder]
    exact .pure _
  | .named _ _ => echoes_named
  | .member _ target name _ => by
    unfold EchoesNode
    rw [Node.folded, node, node]
    exact (echoes_node target).bind fun target => .operation _ (.getMember name) [target]
  | .index _ target place => by
    unfold EchoesNode
    rw [Node.folded, node, node]
    exact (echoes_node target).bind fun target => (echoes_node place).bind fun place =>
      .operation _ .getIndex [target, place]
  | .binary _ op left right => by
    unfold EchoesNode
    rw [Node.folded, node, node]
    exact (echoes_node left).bind fun left => (echoes_node right).bind fun right =>
      .operation _ (.binary op) [left, right]
  | .unary _ op operand => by
    unfold EchoesNode
    rw [Node.folded, node, node]
    exact (echoes_node operand).bind fun operand => .operation _ (.unary op) [operand]
  | .assign _ target value => by
    have last := echoes_node value
    cases target with
    | named _ _ => exact echoes_assignName last
    | member _ object _ _ => exact echoes_assignMember (echoes_node object) last
    | index _ object place => exact echoes_assignIndex (echoes_node object) (echoes_node place) last
    | declare s _ init | leave s init | give s init | choose s _ init =>
      cases init <;> exact .refuse places .notAssignable s
    | _ => exact .refuse places .notAssignable _
  | .call span callee args => by
    have others := echoes_nodes args
    have first := echoes_node callee
    have value := first.invoke (places span) others
    cases callee with
    | named _ _ => exact echoes_callName others
    | member _ object _ _ => exact echoes_callMember (echoes_node object) others
    | declare _ _ init | leave _ init | give _ init | choose _ _ init => cases init <;> exact value
    | _ => exact value
  | .create _ target args =>
    echoes_create (echoes_node target) (echoes_nodes args) (Node.length_foldedAll args)
  | .declare _ _ none => echoes_declare
  | .declare _ _ (some init) => echoes_initialized (echoes_node init)
  | .function _ _ _ body => echoes_function (echoes_node body)
  | .lambda _ _ body => echoes_lambda (echoes_node body)
  | .choose _ branches none => by
    unfold EchoesNode
    rw [Node.folded, node, node]
    exact (echoes_arms branches).bind fun branches => .pure (f := Code.caseless) (.choose branches _)
  | .choose _ branches (some otherwise) => by
    unfold EchoesNode
    rw [Node.folded, node, node]
    refine (echoes_arms branches).bind fun branches => (echoes_node otherwise).bind fun last => ?_
    exact .pure (f := Code.caseless) (.choose branches last)
  | .loop _ body => echoes_loop (echoes_node body)
  | .leave _ none => echoes_leave
  | .leave _ (some value) => echoes_leaveWith (echoes_node value)
  | .give _ none => echoes_give
  | .give _ (some value) => echoes_giveBack (echoes_node value)
  | .importFrom _ _ _ => echoes_importFrom

theorem echoes_nodes : ∀ trees : List Node, EchoesNodes places trees (Node.foldedAll trees)
  | [] => .pure (f := Code.caselessAll) []
  | first :: rest => by
    unfold EchoesNodes
    rw [Node.foldedAll, nodes, nodes]
    exact (echoes_node first).bind fun code => (echoes_nodes rest).bind fun codes =>
      .pure (f := Code.caselessAll) (code :: codes)

theorem echoes_arms : ∀ branches : List (Node × Node),
    EchoesArms places branches (Node.foldedArms branches)
  | [] => .pure (f := Code.caselessArms) []
  | (test, body) :: rest => by
    unfold EchoesArms
    rw [Node.foldedArms, arms, arms]
    exact (echoes_node test).bind fun test => (echoes_node body).bind fun body =>
      (echoes_arms rest).bind fun others => .pure (f := Code.caselessArms) ((test, body) :: others)

end

end

/-- Trees that fold alike are compiled alike, from one workspace. -/
theorem caseless_run {a b : Node} (same : a.folded = b.folded) (places places' : Places) (w : Workspace) :
    caseless Code.caseless ((node places a).run w) = caseless Code.caseless ((node places' b).run w) := by
  rw [← echoes_node, ← echoes_node, same]

end Compile

/-! ## Programs -/

/-- **Results of compiling that are alike**: programs with one layout whose codes differ in positions and in
the case of the names they look up at most, or errors of one cause at one construct. -/
def CompiledAlike : Except CompileError Program → Except CompileError Program → Prop
  | .ok p, .ok q => p.layout = q.layout ∧ p.code.caseless = q.code.caseless
  | .error e, .error f => e.cause = f.cause ∧ e.span = f.span
  | _, _ => False

/-- **Names of variables may be written in any case**: sources whose trees differ in it at most are compiled
alike, and request the same signatures but for the case of the names in them. -/
theorem compile_alike_of_folded {a b : Node} (same : a.folded = b.folded) (number : Nat)
    (source other : List Char) :
    CompiledAlike (compile number source a).1 (compile number other b).1 ∧
      (compile number source a).2.map Signature.folded = (compile number other b).2.map Signature.folded := by
  have alike := Compile.caseless_run same (fun span => (LineIndex.ofSource source).position span.start)
    (fun span => (LineIndex.ofSource other).position span.start)
    ⟨0, ⟨number, 1⟩, [], [.module ⟨number, 0⟩]⟩
  unfold compile
  dsimp only
  generalize (Compile.node _ a).run _ = first at alike ⊢
  generalize (Compile.node _ b).run _ = second at alike ⊢
  obtain ⟨result, w⟩ := first
  obtain ⟨result', w'⟩ := second
  have asked (h : w.folded = w'.folded) : w.scopes = w'.scopes ∧
      w.requests.reverse.map Signature.folded = w'.requests.reverse.map Signature.folded := by
    obtain ⟨-, -, requests, scopes⟩ := Compile.Workspace.mk.inj h
    rw [List.map_reverse, List.map_reverse, requests]
    exact ⟨scopes, rfl⟩
  cases result with
  | ok code =>
    cases result' with
    | error e => cases congrArg Prod.fst alike
    | ok code' =>
      obtain ⟨codes, after⟩ := Prod.mk.inj alike
      obtain ⟨scopes, requests⟩ := asked after
      exact ⟨⟨congrArg Scopes.layout scopes, Except.ok.inj codes⟩, requests⟩
  | error e =>
    cases result' with
    | ok code' => cases congrArg Prod.fst alike
    | error e' =>
      obtain ⟨errors, after⟩ := Prod.mk.inj alike
      obtain ⟨cause, -, span⟩ := CompileError.mk.inj (Except.error.inj errors)
      exact ⟨⟨cause, span⟩, (asked after).2⟩

/-- A script with a global, a function that adds its parameter to it, and a call of a name it leaves open. -/
def countingScript (kept param read used called : String) : Node :=
  .block .none [.assign .none (.named .none kept) (.literal .none (.int 1)),
    .function .none "sum" [param]
      (.give .none (some (.binary .none .add (.named .none read) (.named .none used)))),
    .plain .none (.call .none (.named .none called) [.named .none used])]

theorem fold_eq_fold {a b : String} :
    Text.fold a = Text.fold b ↔ a.toList.map Char.toLower = b.toList.map Char.toLower := by
  simp [Text.fold, ← String.toList_inj]

theorem folded_countingScript {kept kept' param param' read read' used used' called called' : String}
    (first : Text.fold kept = Text.fold kept') (second : Text.fold param = Text.fold param')
    (third : Text.fold read = Text.fold read') (fourth : Text.fold used = Text.fold used')
    (last : Text.fold called = Text.fold called') :
    (countingScript kept param read used called).folded =
      (countingScript kept' param' read' used' called').folded := by
  show countingScript (Text.fold kept) (Text.fold param) (Text.fold read) (Text.fold used)
    (Text.fold called) = _
  rw [first, second, third, fourth, last]
  rfl

theorem compile_alike_of_folded_counting :
    (countingScript "Total" "A" "a" "TOTAL" "print").folded =
        (countingScript "total" "a" "A" "Total" "PRINT").folded ∧
      CompiledAlike (compile 0 [] (countingScript "Total" "A" "a" "TOTAL" "print")).1
        (compile 0 [] (countingScript "total" "a" "A" "Total" "PRINT")).1 ∧
      (compile 0 [] (countingScript "Total" "A" "a" "TOTAL" "print")).2.map Signature.folded =
        (compile 0 [] (countingScript "total" "a" "A" "Total" "PRINT")).2.map Signature.folded :=
  have same : (countingScript "Total" "A" "a" "TOTAL" "print").folded =
      (countingScript "total" "a" "A" "Total" "PRINT").folded :=
    folded_countingScript (by simp [fold_eq_fold]) (by simp [fold_eq_fold]) (by simp [fold_eq_fold])
      (by simp [fold_eq_fold]) (by simp [fold_eq_fold])
  ⟨same, compile_alike_of_folded same 0 [] []⟩

end HostScript
