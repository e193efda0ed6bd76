import HostScript.Proofs.Compile.Constructs

/-!
# Proofs/Compile/Derivations — compiling as a relation

`Compiles` says what is compiled to what, between which workspaces, with one rule for each construct.  It
is what compiling does (`compiles_node_iff`), so that what holds of all compiled nodes can be shown by
induction on the rules, and without a recursion over trees of its own.
-/

namespace HostScript

namespace Compile

/-- What is compiled together, and what it is compiled to. -/
inductive Work where
  | one (tree : Node) (code : Code)
  | all (trees : List Node) (codes : List Code)
  | arms (branches : List (Node × Node)) (codes : List (Code × Code))

/-- **What is compiled to what**, from one workspace to another. -/
inductive Compiles (places : Places) : Workspace → Work → Workspace → Prop where
  | nil {w : Workspace} : Compiles places w (.all [] []) w
  | cons {w w₁ w₂ : Workspace} {tree : Node} {trees : List Node} {code : Code} {codes : List Code} :
    Compiles places w (.one tree code) w₁ → Compiles places w₁ (.all trees codes) w₂ →
    Compiles places w (.all (tree :: trees) (code :: codes)) w₂
  | noArms {w : Workspace} : Compiles places w (.arms [] []) w
  | arm {w w₁ w₂ w₃ : Workspace} {test body : Node} {branches : List (Node × Node)}
    {testCode bodyCode : Code} {codes : List (Code × Code)} :
    Compiles places w (.one test testCode) w₁ → Compiles places w₁ (.one body bodyCode) w₂ →
    Compiles places w₂ (.arms branches codes) w₃ →
    Compiles places w (.arms ((test, body) :: branches) ((testCode, bodyCode) :: codes)) w₃
  | literal {w : Workspace} {span : Span} {value : Literal} :
    Compiles places w (.one (.literal span value) (.constant value)) w
  | empty {w : Workspace} {span : Span} : Compiles places w (.one (.empty span) .null) w
  | plain {w w₁ : Workspace} {span : Span} {tree : Node} {code : Code} :
    Compiles places w (.one tree code) w₁ → Compiles places w (.one (.plain span tree) code) w₁
  | block {w w₁ : Workspace} {span : Span} {trees : List Node} {codes : List Code} :
    Compiles places w (.all trees codes) w₁ →
    Compiles places w (.one (.block span trees) (inOrder codes)) w₁
  /-- An operation is requested after its operands. -/
  | operation {w w₁ : Workspace} {tree : Node} {s : Signature} {trees : List Node} {codes : List Code} :
    tree.operation? = some (s, trees) → Compiles places w (.all trees codes) w₁ →
    Compiles places w (.one tree (.dispatch (places tree.span) s codes))
      { w₁ with requests := s :: w₁.requests }
  /-- An instance is requested before its operands. -/
  | create {w w₁ : Workspace} {span : Span} {target : Node} {args : List Node} {codes : List Code} :
    Compiles places { w with requests := .createInstance args.length :: w.requests }
      (.all (target :: args) codes) w₁ →
    Compiles places w (.one (.create span target args)
      (.dispatch (places span) (.createInstance args.length) codes)) w₁
  | read {w : Workspace} {span : Span} {name : String} {slot : SlotRef} :
    w.scopes.find? name = some slot → Compiles places w (.one (.named span name) (.read slot)) w
  | lookup {w : Workspace} {span : Span} {name : String} : w.scopes.find? name = none →
    Compiles places w (.one (.named span name) (.dispatch (places span) (.lookup name) []))
      { w with requests := .lookup name :: w.requests }
  | invoke {w w₁ : Workspace} {span inner : Span} {name : String} {slot : SlotRef} {args : List Node}
    {codes : List Code} : w.scopes.find? name = some slot → Compiles places w (.all args codes) w₁ →
    Compiles places w (.one (.call span (.named inner name) args)
      (.dispatch (places span) (.invoke codes.length) (.read slot :: codes)))
      { w₁ with requests := .invoke codes.length :: w₁.requests }
  | call {w w₁ : Workspace} {span inner : Span} {name : String} {args : List Node} {codes : List Code} :
    w.scopes.find? name = none → Compiles places w (.all args codes) w₁ →
    Compiles places w (.one (.call span (.named inner name) args)
      (.dispatch (places span) (.call name codes.length) codes))
      { w₁ with requests := .call name codes.length :: w₁.requests }
  | declare {w : Workspace} {span : Span} {name : String} :
    Compiles places w (.one (.declare span name none) .null)
      { w with scopes := (w.scopes.declareLocal name).2 }
  | declareWith {w w₁ : Workspace} {span : Span} {name : String} {value : Node} {code : Code} :
    Compiles places w (.one value code) w₁ →
    Compiles places w (.one (.declare span name (some value))
      (.write (w₁.scopes.declareLocal name).1 code))
      { w₁ with scopes := (w₁.scopes.declareLocal name).2 }
  | assign {w w₁ : Workspace} {span inner : Span} {name : String} {slot : SlotRef} {value : Node}
    {code : Code} : Compiles places w (.one value code) w₁ → w₁.scopes.find? name = some slot →
    Compiles places w (.one (.assign span (.named inner name) value) (.write slot code)) w₁
  | assignNew {w w₁ : Workspace} {span inner : Span} {name : String} {value : Node} {code : Code} :
    Compiles places w (.one value code) w₁ → w₁.scopes.find? name = none →
    Compiles places w (.one (.assign span (.named inner name) value)
      (.write (w₁.scopes.declareGlobal name).1 code))
      { w₁ with scopes := (w₁.scopes.declareGlobal name).2 }
  | function {w w₁ : Workspace} {span : Span} {name : String} {params : List String} {body : Node}
    {code : Code} : w.scopes.atModule = true →
    Compiles places { w with
        next := { w.next with number := w.next.number + 1 }
        scopes := .function w.next params :: w.scopes } (.one body code) w₁ →
    Compiles places w (.one (.function span name params body)
      (.dispatch (places span) (.setMember name) [.thisModule, .closure
        ⟨name, params.length, w₁.scopes.layout, w₁.scopes.returnLabel?, code⟩]))
      { w₁ with scopes := w₁.scopes.drop 1, requests := .setMember name :: w₁.requests }
  /-- A lambda is given a label for its `return`s before its body is compiled. -/
  | lambda {w w₁ w₂ : Workspace} {span : Span} {params : List String} {body : Node} {label : Label}
    {code : Code} :
    Yields returnLabel { w with
        next := { w.next with number := w.next.number + 1 }
        scopes := .function w.next params :: w.scopes } label w₁ →
    Compiles places w₁ (.one body code) w₂ →
    Compiles places w (.one (.lambda span params body) (.closure
      ⟨"lambda", params.length, w₂.scopes.layout, w₂.scopes.returnLabel?, code⟩))
      { w₂ with scopes := w₂.scopes.drop 1 }
  | loop {w w₁ : Workspace} {span : Span} {body : Node} {code : Code} :
    Compiles places { w with
        labels := w.labels + 1
        scopes := .loop w.scopes.owner ⟨w.labels⟩ :: w.scopes } (.one body code) w₁ →
    Compiles places w (.one (.loop span body) (.loop ⟨w.labels⟩ code))
      { w₁ with scopes := w₁.scopes.drop 1 }
  | choose {w w₁ : Workspace} {span : Span} {branches : List (Node × Node)}
    {codes : List (Code × Code)} : Compiles places w (.arms branches codes) w₁ →
    Compiles places w (.one (.choose span branches none) (.choose codes (.constant (.bool false)))) w₁
  | chooseElse {w w₁ w₂ : Workspace} {span : Span} {branches : List (Node × Node)} {body : Node}
    {codes : List (Code × Code)} {code : Code} : Compiles places w (.arms branches codes) w₁ →
    Compiles places w₁ (.one body code) w₂ →
    Compiles places w (.one (.choose span branches (some body)) (.choose codes code)) w₂
  | leave {w : Workspace} {span : Span} {label : Label} : w.scopes.loopLabel? = some label →
    Compiles places w (.one (.leave span none) (.leave label .null)) w
  | leaveWith {w w₁ : Workspace} {span : Span} {label : Label} {value : Node} {code : Code} :
    w.scopes.loopLabel? = some label → Compiles places w (.one value code) w₁ →
    Compiles places w (.one (.leave span (some value)) (.leave label code)) w₁
  | give {w w₁ : Workspace} {span : Span} {label : Label} : w.scopes.inFunction = true →
    Yields returnLabel w label w₁ →
    Compiles places w (.one (.give span none) (.give label (.constant (.bool true)))) w₁
  | giveBack {w w₁ w₂ : Workspace} {span : Span} {label : Label} {value : Node} {code : Code} :
    w.scopes.inFunction = true → Yields returnLabel w label w₁ →
    Compiles places w₁ (.one value code) w₂ →
    Compiles places w (.one (.give span (some value)) (.give label code)) w₂
  | importFrom {w : Workspace} {span : Span} {path : List String} {renamed : Option String} :
    w.scopes.atModule = true →
    Compiles places w (.one (.importFrom span path renamed)
      (.importAs (places span) path ((renamed.or path.getLast?).getD ""))) w

namespace Yields

variable {places : Places} {span : Span} {name : String} {params : List String} {body : Node}
  {path : List String} {renamed : Option String} {w w' : Workspace} {code : Code}

/-- Functions are defined in modules themselves. -/
theorem atModule_function (h : Yields (node places (.function span name params body)) w code w') :
    w.scopes.atModule = true := by
  obtain ⟨_, _, found, h⟩ := h.bind
  obtain ⟨rfl, rfl⟩ := found.scopes
  split at h
  next here => exact here
  next => exact h.refuse.elim

/-- Imports are made in modules themselves. -/
theorem atModule_importFrom (h : Yields (node places (.importFrom span path renamed)) w code w') :
    w.scopes.atModule = true := by
  obtain ⟨_, _, found, h⟩ := h.bind
  obtain ⟨rfl, rfl⟩ := found.scopes
  split at h
  next here => exact here
  next => exact h.refuse.elim

end Yields

/-! ## What compiling does is derived -/

/-- What a node is compiled to is derived. -/
def DerivesNode (places : Places) (tree : Node) : Prop :=
  ∀ ⦃w w' : Workspace⦄ ⦃code : Code⦄, Yields (node places tree) w code w' →
    Compiles places w (.one tree code) w'

/-- What nodes are compiled to is derived. -/
def DerivesNodes (places : Places) (trees : List Node) : Prop :=
  ∀ ⦃w w' : Workspace⦄ ⦃codes : List Code⦄, Yields (nodes places trees) w codes w' →
    Compiles places w (.all trees codes) w'

/-- What tests and bodies are compiled to is derived. -/
def DerivesArms (places : Places) (branches : List (Node × Node)) : Prop :=
  ∀ ⦃w w' : Workspace⦄ ⦃codes : List (Code × Code)⦄, Yields (arms places branches) w codes w' →
    Compiles places w (.arms branches codes) w'

section

variable {places : Places} {tree : Node} {trees : List Node}

theorem derives_nil : DerivesNodes places [] := by
  intro w w' codes h
  obtain ⟨rfl, rfl⟩ := h.nil
  exact .nil

theorem derives_cons (one : DerivesNode places tree) (rest : DerivesNodes places trees) :
    DerivesNodes places (tree :: trees) := by
  intro w w' codes h
  obtain ⟨_, _, _, made, next, rfl⟩ := h.cons
  exact .cons (one made) (rest next)

theorem derives_operation {s : Signature} (is_operation : tree.operation? = some (s, trees))
    (all : DerivesNodes places trees) : DerivesNode places tree := by
  intro w w' code h
  obtain ⟨_, _, made, rfl, rfl⟩ := h.operates is_operation
  exact .operation is_operation (all made)

end

variable (places : Places)

mutual

/-- **What a node is compiled to is derived**: there is a rule for each construct. -/
theorem derives_node : ∀ tree, DerivesNode places tree
  | .literal _ _ => fun _ _ _ h => by
    obtain ⟨rfl, rfl⟩ := h.literal
    exact .literal
  | .empty _ => fun _ _ _ h => by
    obtain ⟨rfl, rfl⟩ := h.empty
    exact .empty
  | .plain _ tree => fun _ _ _ h => .plain (derives_node tree h.plain)
  | .block _ trees => fun _ _ _ h => by
    obtain ⟨_, made, rfl⟩ := h.block
    exact .block (derives_nodes trees made)
  | .named _ _ => fun _ _ _ h => by
    obtain ⟨_, known, rfl, rfl⟩ | ⟨missing, rfl, rfl⟩ := h.named
    · exact .read known
    · exact .lookup missing
  | .member _ target _ _ => derives_operation rfl (derives_cons (derives_node target) derives_nil)
  | .index _ target place =>
    have last := derives_cons (derives_node place) derives_nil
    derives_operation rfl (derives_cons (derives_node target) last)
  | .binary _ _ left right =>
    have last := derives_cons (derives_node right) derives_nil
    derives_operation rfl (derives_cons (derives_node left) last)
  | .unary _ _ operand => derives_operation rfl (derives_cons (derives_node operand) derives_nil)
  | .assign _ target value => by
    have last := derives_node value
    have alone := derives_cons last derives_nil
    cases target with
    | named =>
      intro w w' code h
      obtain ⟨_, _, made, ⟨_, known, rfl, rfl⟩ | ⟨missing, rfl, rfl⟩⟩ := h.assignName
      · exact .assign (last made) known
      · exact .assignNew (last made) missing
    | member _ object _ _ => exact derives_operation rfl (derives_cons (derives_node object) alone)
    | index _ object place =>
      have after := derives_cons (derives_node place) alone
      exact derives_operation rfl (derives_cons (derives_node object) after)
    | _ => exact fun _ _ _ h => nomatch h.isAssignable
  | .call _ callee args => by
    have first := derives_node callee
    have others := derives_nodes args
    cases callee with
    | named =>
      intro w w' code h
      obtain ⟨_, _, made, ⟨_, known, rfl, rfl⟩ | ⟨missing, rfl, rfl⟩⟩ := h.callName
      · exact .invoke known (others made)
      · exact .call missing (others made)
    | member _ object _ _ => exact derives_operation rfl (derives_cons (derives_node object) others)
    | _ => exact derives_operation rfl (derives_cons first others)
  | .create _ target args => fun _ _ _ h => by
    obtain ⟨_, made, rfl⟩ := h.create
    exact .create (derives_cons (derives_node target) (derives_nodes args) made)
  | .declare _ _ none => fun _ _ _ h => by
    obtain ⟨rfl, rfl⟩ := h.declare
    exact .declare
  | .declare _ _ (some value) => fun _ _ _ h => by
    obtain ⟨_, _, made, rfl, rfl⟩ := h.initialized
    exact .declareWith (derives_node value made)
  | .function _ _ _ body => fun _ _ _ h => by
    have here := h.atModule_function
    obtain ⟨_, _, made, rfl, rfl⟩ := h.function
    exact .function here (derives_node body made)
  | .lambda _ _ body => fun _ _ _ h => by
    obtain ⟨_, _, _, _, labelled, made, rfl, rfl⟩ := h.lambda
    exact .lambda labelled (derives_node body made)
  | .choose _ branches none => fun _ _ _ h => by
    obtain ⟨_, made, rfl⟩ := h.choose
    exact .choose (derives_arms branches made)
  | .choose _ branches (some body) => fun _ _ _ h => by
    obtain ⟨_, _, _, made, next, rfl⟩ := h.chooseElse
    exact .chooseElse (derives_arms branches made) (derives_node body next)
  | .loop _ body => fun _ _ _ h => by
    obtain ⟨_, _, made, rfl, rfl⟩ := h.loop
    exact .loop (derives_node body made)
  | .leave _ none => fun _ _ _ h => by
    obtain ⟨_, inside, rfl, rfl⟩ := h.leave
    exact .leave inside
  | .leave _ (some value) => fun _ _ _ h => by
    obtain ⟨_, _, inside, made, rfl⟩ := h.leaveWith
    exact .leaveWith inside (derives_node value made)
  | .give _ none => fun _ _ _ h => by
    obtain ⟨_, inside, labelled, rfl⟩ := h.give
    exact .give inside labelled
  | .give _ (some value) => fun _ _ _ h => by
    obtain ⟨_, _, _, inside, labelled, made, rfl⟩ := h.giveBack
    exact .giveBack inside labelled (derives_node value made)
  | .importFrom _ _ _ => fun _ _ _ h => by
    have here := h.atModule_importFrom
    obtain ⟨rfl, rfl⟩ := h.importFrom
    exact .importFrom here

theorem derives_nodes : ∀ trees, DerivesNodes places trees
  | [] => derives_nil
  | first :: rest => derives_cons (derives_node first) (derives_nodes rest)

theorem derives_arms : ∀ branches, DerivesArms places branches
  | [] => fun _ _ _ h => by
    obtain ⟨rfl, rfl⟩ := h.noArms
    exact .noArms
  | (test, body) :: rest => fun _ _ _ h => by
    obtain ⟨_, _, _, _, _, made, next, last, rfl⟩ := h.arm
    exact .arm (derives_node test made) (derives_node body next) (derives_arms rest last)

end

/-! ## What is derived is what compiling does -/

/-- What compiling does to work. -/
def Work.Yields (w : Workspace) (work : Work) (w' : Workspace) : Prop :=
  match work with
  | one tree code => Compile.Yields (node places tree) w code w'
  | all trees codes => Compile.Yields (nodes places trees) w codes w'
  | arms branches codes => Compile.Yields (Compile.arms places branches) w codes w'

variable {places : Places}

/-- An operation is made of the codes of its operands. -/
theorem Yields.of_operation {tree : Node} {s : Signature} {trees : List Node} {w w' : Workspace}
    {codes : List Code} (is_operation : tree.operation? = some (s, trees))
    (h : Yields (nodes places trees) w codes w') :
    Yields (node places tree) w (.dispatch (places tree.span) s codes)
      { w' with requests := s :: w'.requests } := by
  have same := h.length_eq
  cases tree with
  | member | unary =>
    cases is_operation
    obtain ⟨_, _, _, made, next, rfl⟩ := h.cons
    obtain ⟨rfl, rfl⟩ := next.nil
    exact made.of_bind rfl
  | index | binary =>
    cases is_operation
    obtain ⟨_, _, _, made, next, rfl⟩ := h.cons
    obtain ⟨_, _, _, second, last, rfl⟩ := next.cons
    obtain ⟨rfl, rfl⟩ := last.nil
    exact made.of_bind (second.of_bind rfl)
  | assign _ target _ =>
    cases target with
    | member =>
      cases is_operation
      obtain ⟨_, _, _, made, next, rfl⟩ := h.cons
      obtain ⟨_, _, _, second, last, rfl⟩ := next.cons
      obtain ⟨rfl, rfl⟩ := last.nil
      exact made.of_bind (second.of_bind rfl)
    | index =>
      cases is_operation
      obtain ⟨_, _, _, made, next, rfl⟩ := h.cons
      obtain ⟨_, _, _, second, last, rfl⟩ := next.cons
      obtain ⟨_, _, _, third, end_, rfl⟩ := last.cons
      obtain ⟨rfl, rfl⟩ := end_.nil
      exact made.of_bind (second.of_bind (third.of_bind rfl))
    | _ => cases is_operation
  | call _ callee args =>
    have all {s : Nat → Signature} {callee : Node} {between : Workspace} {first : Code}
        {rest : List Code} (made : Yields (node places callee) w first between)
        (next : Yields (nodes places args) between rest w') (position : Position) :
        Yields (node places callee >>= fun a => nodes places args >>= fun operands =>
            Compile.operation position (s operands.length) (a :: operands)) w
          (Code.dispatch position (s args.length) (first :: rest))
          { w' with requests := s args.length :: w'.requests } := by
      refine made.of_bind (next.of_bind ?_)
      rw [next.length_eq]
      rfl
    cases callee with
    | named => cases is_operation
    | member =>
      cases is_operation
      obtain ⟨_, _, _, made, next, rfl⟩ := h.cons
      exact all made next _
    | _ =>
      cases is_operation
      obtain ⟨_, _, _, made, next, rfl⟩ := h.cons
      exact all made next _
  | _ => cases is_operation

theorem Yields.of_scopes {α : Type} {rest : Scopes → Step α} {a : α} {w w' : Workspace}
    (h : Yields (rest w.scopes) w a w') : Yields (Compile.scopes >>= rest) w a w' :=
  of_bind (show Yields Compile.scopes w w.scopes w from rfl) h

theorem Yields.of_changeScopes {α β : Type} {f : Scopes → α × Scopes} {rest : α → Step β} {b : β}
    {w w' : Workspace}
    (h : Yields (rest (f w.scopes).1) { w with scopes := (f w.scopes).2 } b w') :
    Yields (Compile.changeScopes f >>= rest) w b w' :=
  of_bind (show Yields (Compile.changeScopes f) w (f w.scopes).1 _ from rfl) h

theorem Yields.of_request {β : Type} {s : Signature} {rest : Unit → Step β} {b : β} {w w' : Workspace}
    (h : Yields (rest ()) { w with requests := s :: w.requests } b w') :
    Yields (Compile.request s >>= rest) w b w' :=
  of_bind (show Yields (Compile.request s) w () _ from rfl) h

theorem Yields.of_freshLabel {β : Type} {rest : Label → Step β} {b : β} {w w' : Workspace}
    (h : Yields (rest ⟨w.labels⟩) { w with labels := w.labels + 1 } b w') :
    Yields (Compile.freshLabel >>= rest) w b w' :=
  of_bind (show Yields Compile.freshLabel w ⟨w.labels⟩ _ from rfl) h

theorem Yields.of_freshOwner {β : Type} {rest : Owner → Step β} {b : β} {w w' : Workspace}
    (h : Yields (rest w.next) { w with next := { w.next with number := w.next.number + 1 } } b w') :
    Yields (Compile.freshOwner >>= rest) w b w' :=
  of_bind (show Yields Compile.freshOwner w w.next _ from rfl) h

/-- What is derived is what compiling does. -/
theorem Compiles.yields {w w' : Workspace} {work : Work} (h : Compiles places w work w') :
    work.Yields places w w' := by
  induction h with
  | nil | noArms | literal | empty | declare => rfl
  | cons _ _ made next => exact .of_cons made next
  | arm _ _ _ made next last => exact made.of_bind (next.of_bind (last.of_bind rfl))
  | plain _ made =>
    rw [Work.Yields, node]
    exact made
  | block _ made => exact made.of_bind rfl
  | operation is_operation _ made => exact .of_operation is_operation made
  | create _ made =>
    obtain ⟨_, _, _, first, rest, rfl⟩ := Yields.cons made
    exact Yields.of_request (first.of_bind (rest.of_bind rfl))
  | read known =>
    refine .of_scopes ?_
    rw [known]
    rfl
  | lookup missing =>
    refine .of_scopes ?_
    rw [missing]
    rfl
  | invoke known _ made =>
    refine .of_scopes ?_
    rw [known]
    exact made.of_bind rfl
  | call missing _ made =>
    refine .of_scopes ?_
    rw [missing]
    exact made.of_bind rfl
  | declareWith _ made =>
    refine made.of_bind (.of_changeScopes ?_)
    rfl
  | assign _ known made =>
    refine made.of_bind (.of_scopes ?_)
    rw [known]
    rfl
  | assignNew _ missing made =>
    refine made.of_bind (.of_scopes ?_)
    rw [missing]
    refine .of_changeScopes ?_
    rfl
  | function here _ made =>
    refine .of_scopes ?_
    rw [if_pos here]
    exact .of_freshOwner (.of_changeScopes (made.of_bind rfl))
  | lambda labelled _ made =>
    exact .of_freshOwner (.of_changeScopes (labelled.of_bind (made.of_bind rfl)))
  | loop _ made => exact .of_freshLabel (.of_scopes (.of_changeScopes (made.of_bind rfl)))
  | choose _ made => exact made.of_bind rfl
  | chooseElse _ _ made next => exact made.of_bind (next.of_bind rfl)
  | leave inside =>
    refine .of_scopes ?_
    rw [inside]
    rfl
  | leaveWith inside _ made =>
    refine .of_scopes ?_
    rw [inside]
    exact made.of_bind rfl
  | give inside labelled =>
    refine .of_scopes ?_
    rw [if_pos inside]
    exact labelled.of_bind rfl
  | giveBack inside labelled _ made =>
    refine .of_scopes ?_
    rw [if_pos inside]
    exact labelled.of_bind (made.of_bind rfl)
  | importFrom here =>
    refine .of_scopes ?_
    rw [if_pos here]
    rfl

/-- **Compiling a node is deriving what it is compiled to.** -/
theorem compiles_node_iff {tree : Node} {code : Code} {w w' : Workspace} :
    Yields (node places tree) w code w' ↔ Compiles places w (.one tree code) w' :=
  ⟨fun h => derives_node places tree h, Compiles.yields⟩

end Compile

end HostScript
