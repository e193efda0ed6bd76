import HostScript.Proofs.Compile.Steps

/-!
# Proofs/Compile/Constructs — what compiling a construct takes

A node that is compiled, taken apart into what its parts are compiled to: one inversion lemma for each
construct, which speaks of the construct and not of the steps that compile it.  Compiling a construct is
by definition a sequence of steps, so `Yields.bind` takes it apart as it stands.  Most constructs are
dynamic operations on nodes, and one lemma is about them all (`Yields.operates`).
-/

namespace HostScript

/-- The dynamic operation that a node is, and the nodes that it works on. -/
def Node.operation? : Node → Option (Signature × List Node)
  | .member _ target name _ => some (.getMember name, [target])
  | .index _ target place => some (.getIndex, [target, place])
  | .binary _ op left right => some (.binary op, [left, right])
  | .unary _ op operand => some (.unary op, [operand])
  | .assign _ (.member _ object name _) value => some (.setMember name, [object, value])
  | .assign _ (.index _ object place) value => some (.setIndex, [object, place, value])
  | .call _ (.named _ _) _ => none
  | .call _ (.member _ object name _) args => some (.invokeMember name args.length, object :: args)
  | .call _ callee args => some (.invoke args.length, callee :: args)
  | _ => none

namespace Compile

namespace Yields

variable {places : Places} {span inner : Span} {name : String} {target value body : Node}
  {trees args : List Node} {params : List String} {branches : List (Node × Node)}
  {w w' : Workspace} {code : Code} {codes : List Code}

/-! ## Lists of nodes -/

theorem nil (h : Yields (nodes places []) w codes w') : codes = [] ∧ w' = w := h.pure

theorem cons (h : Yields (nodes places (value :: trees)) w codes w') :
    ∃ first between rest, Yields (node places value) w first between ∧
      Yields (nodes places trees) between rest w' ∧ codes = first :: rest := by
  obtain ⟨first, between, made, h⟩ := h.bind
  obtain ⟨rest, _, next, h⟩ := h.bind
  obtain ⟨rfl, rfl⟩ := h.pure
  exact ⟨first, between, rest, made, next, rfl⟩

theorem length_eq (h : Yields (nodes places trees) w codes w') : codes.length = trees.length := by
  induction trees generalizing w codes with
  | nil =>
    obtain ⟨rfl, -⟩ := h.nil
    rfl
  | cons _ _ ih =>
    obtain ⟨_, _, _, -, next, rfl⟩ := h.cons
    exact congrArg (· + 1) (ih next)

theorem noArms {arms : List (Code × Code)} (h : Yields (Compile.arms places []) w arms w') :
    arms = [] ∧ w' = w := h.pure

theorem arm {arms : List (Code × Code)}
    (h : Yields (Compile.arms places ((value, body) :: branches)) w arms w') :
    ∃ test between first after rest, Yields (node places value) w test between ∧
      Yields (node places body) between first after ∧
        Yields (Compile.arms places branches) after rest w' ∧ arms = (test, first) :: rest := by
  obtain ⟨test, between, made, h⟩ := h.bind
  obtain ⟨first, after, next, h⟩ := h.bind
  obtain ⟨rest, _, last, h⟩ := h.bind
  obtain ⟨rfl, rfl⟩ := h.pure
  exact ⟨test, between, first, after, rest, made, next, last, rfl⟩

theorem literal {value : Literal} (h : Yields (node places (.literal span value)) w code w') :
    code = .constant value ∧ w' = w := h.pure

theorem empty (h : Yields (node places (.empty span)) w code w') : code = .null ∧ w' = w := h.pure

theorem block (h : Yields (node places (.block span trees)) w code w') :
    ∃ codes, Yields (nodes places trees) w codes w' ∧ code = inOrder codes := by
  obtain ⟨codes, _, made, h⟩ := h.bind
  obtain ⟨rfl, rfl⟩ := h.pure
  exact ⟨codes, made, rfl⟩

/-! ## Operations -/

/-- What a dynamic operation on nodes takes: their codes in order, and the request of the operation. -/
def Operates (places : Places) (span : Span) (s : Signature) (trees : List Node) (w : Workspace)
    (code : Code) (w' : Workspace) : Prop :=
  ∃ codes between, Yields (nodes places trees) w codes between ∧
    code = .dispatch (places span) s codes ∧
      w' = { between with requests := s :: between.requests }

/-- What succeeds one after the other succeeds. -/
theorem of_bind {α β : Type} {first : Step α} {rest : α → Step β} {a : α} {b : β}
    {between : Workspace} (h : Yields first w a between) (k : Yields (rest a) between b w') :
    Yields (first >>= rest) w b w' := by
  unfold Yields at h k ⊢
  rw [run_bind, h]
  exact k

theorem of_nil (w : Workspace) : Yields (nodes places []) w [] w := rfl

/-- A node and nodes after it, all in order. -/
theorem of_cons {first : Code} {rest : List Code} {between : Workspace}
    (made : Yields (node places value) w first between)
    (next : Yields (nodes places trees) between rest w') :
    Yields (nodes places (value :: trees)) w (first :: rest) w' :=
  made.of_bind (next.of_bind rfl)

theorem operates₁ {s : Signature}
    (h : Yields (node places value >>= fun v => Compile.operation (places span) s [v]) w code w') :
    Operates places span s [value] w code w' := by
  obtain ⟨_, _, made, h⟩ := h.bind
  exact ⟨_, _, of_cons made (of_nil _), h.operation⟩

theorem operates₂ {s : Signature}
    (h : Yields (node places target >>= fun a => node places value >>= fun b =>
      Compile.operation (places span) s [a, b]) w code w') :
    Operates places span s [target, value] w code w' := by
  obtain ⟨_, _, made, h⟩ := h.bind
  obtain ⟨_, _, next, h⟩ := h.bind
  exact ⟨_, _, of_cons made (of_cons next (of_nil _)), h.operation⟩

theorem operatesAll {s : Nat → Signature}
    (h : Yields (node places target >>= fun a => nodes places args >>= fun operands =>
      Compile.operation (places span) (s operands.length) (a :: operands)) w code w') :
    Operates places span (s args.length) (target :: args) w code w' := by
  obtain ⟨_, _, made, h⟩ := h.bind
  obtain ⟨operands, _, next, h⟩ := h.bind
  rw [next.length_eq] at h
  exact ⟨_, _, of_cons made next, h.operation⟩

/-- **A node that is a dynamic operation** makes the codes of its operands, in order, and then requests
the operation. -/
theorem operates {tree : Node} {s : Signature} (h : Yields (node places tree) w code w')
    (is_operation : tree.operation? = some (s, trees)) :
    Operates places tree.span s trees w code w' := by
  cases tree with
  | member | unary =>
    cases is_operation
    exact h.operates₁
  | index | binary =>
    cases is_operation
    exact h.operates₂
  | assign _ target _ =>
    cases target with
    | member =>
      cases is_operation
      exact h.operates₂
    | index =>
      cases is_operation
      obtain ⟨_, _, made, h⟩ := h.bind
      obtain ⟨_, _, next, h⟩ := h.bind
      obtain ⟨_, _, last, h⟩ := h.bind
      exact ⟨_, _, of_cons made (of_cons next (of_cons last (of_nil _))), h.operation⟩
    | _ => cases is_operation
  | call _ callee _ =>
    cases callee with
    | named => cases is_operation
    | member =>
      cases is_operation
      exact h.operatesAll
    | _ =>
      cases is_operation
      exact h.operatesAll
  | _ => cases is_operation

/-- The instance is requested before its operands. -/
theorem create (h : Yields (node places (.create span target args)) w code w') :
    ∃ codes, Yields (nodes places (target :: args))
        { w with requests := .createInstance args.length :: w.requests } codes w' ∧
      code = .dispatch (places span) (.createInstance args.length) codes := by
  obtain ⟨_, _, requested, h⟩ := h.bind
  obtain rfl := requested.request
  obtain ⟨_, _, made, h⟩ := h.bind
  obtain ⟨_, _, next, h⟩ := h.bind
  obtain ⟨rfl, rfl⟩ := h.pure
  exact ⟨_, of_cons made next, rfl⟩

/-! ## Names and variables -/

theorem named (h : Yields (node places (.named span name)) w code w') :
    (∃ slot, w.scopes.find? name = some slot ∧ code = .read slot ∧ w' = w) ∨
      w.scopes.find? name = none ∧ code = .dispatch (places span) (.lookup name) [] ∧
        w' = { w with requests := .lookup name :: w.requests } := by
  obtain ⟨_, _, found, h⟩ := h.bind
  obtain ⟨rfl, rfl⟩ := found.scopes
  split at h
  next slot known => exact .inl ⟨slot, known, h.pure⟩
  next missing => exact .inr ⟨missing, h.operation⟩

/-- A name that is called is read from its slot, or looked for together with the call. -/
theorem callName (h : Yields (node places (.call span (.named inner name) args)) w code w') :
    ∃ codes between, Yields (nodes places args) w codes between ∧
      ((∃ slot, w.scopes.find? name = some slot ∧
          code = .dispatch (places span) (.invoke codes.length) (.read slot :: codes) ∧
            w' = { between with requests := .invoke codes.length :: between.requests }) ∨
        w.scopes.find? name = none ∧
          code = .dispatch (places span) (.call name codes.length) codes ∧
            w' = { between with requests := .call name codes.length :: between.requests }) := by
  obtain ⟨_, _, found, h⟩ := h.bind
  obtain ⟨rfl, rfl⟩ := found.scopes
  split at h
  next slot known =>
    obtain ⟨codes, between, made, h⟩ := h.bind
    exact ⟨codes, between, made, .inl ⟨slot, known, h.operation⟩⟩
  next missing =>
    obtain ⟨codes, between, made, h⟩ := h.bind
    exact ⟨codes, between, made, .inr ⟨missing, h.operation⟩⟩

theorem declare (h : Yields (node places (.declare span name none)) w code w') :
    code = .null ∧ w' = { w with scopes := (w.scopes.declareLocal name).2 } := by
  obtain ⟨_, _, declared, h⟩ := h.bind
  obtain ⟨-, rfl⟩ := declared.changeScopes
  exact h.pure

/-- A variable is declared after its value is there. -/
theorem initialized (h : Yields (node places (.declare span name (some value))) w code w') :
    ∃ made between, Yields (node places value) w made between ∧
      code = .write (between.scopes.declareLocal name).1 made ∧
        w' = { between with scopes := (between.scopes.declareLocal name).2 } := by
  obtain ⟨made, between, making, h⟩ := h.bind
  obtain ⟨_, _, declared, h⟩ := h.bind
  obtain ⟨rfl, rfl⟩ := declared.changeScopes
  exact ⟨made, between, making, h.pure⟩

/-- A name is assigned after the value is there; one that is not found is declared in the module. -/
theorem assignName (h : Yields (node places (.assign span (.named inner name) value)) w code w') :
    ∃ made between, Yields (node places value) w made between ∧
      ((∃ slot, between.scopes.find? name = some slot ∧
          code = .write slot made ∧ w' = between) ∨
        between.scopes.find? name = none ∧
          code = .write (between.scopes.declareGlobal name).1 made ∧
            w' = { between with scopes := (between.scopes.declareGlobal name).2 }) := by
  obtain ⟨made, between, making, h⟩ := h.bind
  obtain ⟨_, _, found, h⟩ := h.bind
  obtain ⟨rfl, rfl⟩ := found.scopes
  split at h
  next slot known => exact ⟨made, _, making, .inl ⟨slot, known, h.pure⟩⟩
  next missing =>
    obtain ⟨_, _, declared, h⟩ := h.bind
    obtain ⟨rfl, rfl⟩ := declared.changeScopes
    exact ⟨made, _, making, .inr ⟨missing, h.pure⟩⟩

/-- What cannot be assigned to has no code. -/
theorem isAssignable (h : Yields (node places (.assign span target value)) w code w') :
    target.isAssignable = true := by
  cases target with
  | named _ _ => rfl
  | member _ _ _ _ => rfl
  | index _ _ _ => rfl
  | _ => exact h.refuse.elim

/-! ## Functions and loops -/

theorem function (h : Yields (node places (.function span name params body)) w code w') :
    ∃ made inside, Yields (node places body)
        { w with
          next := { w.next with number := w.next.number + 1 }
          scopes := .function w.next params :: w.scopes } made inside ∧
      code = .dispatch (places span) (.setMember name) [.thisModule, .closure
        ⟨name, params.length, inside.scopes.layout, inside.scopes.returnLabel?, made⟩] ∧
      w' = { inside with
        scopes := inside.scopes.drop 1, requests := .setMember name :: inside.requests } := by
  obtain ⟨_, _, found, h⟩ := h.bind
  obtain ⟨rfl, rfl⟩ := found.scopes
  split at h
  next =>
    obtain ⟨owner, _, fresh, h⟩ := h.bind
    obtain ⟨rfl, rfl⟩ := fresh.freshOwner
    obtain ⟨_, _, opens, h⟩ := h.bind
    obtain rfl := opens.push
    obtain ⟨made, inside, making, h⟩ := h.bind
    obtain ⟨_, _, closes, h⟩ := h.bind
    obtain ⟨rfl, rfl⟩ := closes.template
    exact ⟨made, inside, making, h.operation⟩
  next => exact h.refuse.elim

/-- A lambda is given a label for its `return`s before its body is compiled. -/
theorem lambda (h : Yields (node places (.lambda span params body)) w code w') :
    ∃ label opened made inside, Yields Compile.returnLabel
        { w with
          next := { w.next with number := w.next.number + 1 }
          scopes := .function w.next params :: w.scopes } label opened ∧
      Yields (node places body) opened made inside ∧
      code = .closure
        ⟨"lambda", params.length, inside.scopes.layout, inside.scopes.returnLabel?, made⟩ ∧
      w' = { inside with scopes := inside.scopes.drop 1 } := by
  obtain ⟨owner, _, fresh, h⟩ := h.bind
  obtain ⟨rfl, rfl⟩ := fresh.freshOwner
  obtain ⟨_, _, opens, h⟩ := h.bind
  obtain rfl := opens.push
  obtain ⟨label, opened, labelled, h⟩ := h.bind
  obtain ⟨made, inside, making, h⟩ := h.bind
  obtain ⟨_, _, closes, h⟩ := h.bind
  obtain ⟨rfl, rfl⟩ := closes.template
  exact ⟨label, opened, made, inside, labelled, making, h.pure⟩

theorem loop (h : Yields (node places (.loop span body)) w code w') :
    ∃ made inside, Yields (node places body)
        { w with
          labels := w.labels + 1
          scopes := .loop w.scopes.owner ⟨w.labels⟩ :: w.scopes } made inside ∧
      code = .loop ⟨w.labels⟩ made ∧ w' = { inside with scopes := inside.scopes.drop 1 } := by
  obtain ⟨_, _, fresh, h⟩ := h.bind
  obtain ⟨rfl, rfl⟩ := fresh.freshLabel
  obtain ⟨_, _, found, h⟩ := h.bind
  obtain ⟨rfl, rfl⟩ := found.scopes
  obtain ⟨_, _, opens, h⟩ := h.bind
  obtain rfl := opens.push
  obtain ⟨made, inside, making, h⟩ := h.bind
  obtain ⟨_, _, closes, h⟩ := h.bind
  obtain rfl := closes.pop
  exact ⟨made, inside, making, h.pure⟩

/-! ## Choices and jumps -/

theorem choose (h : Yields (node places (.choose span branches none)) w code w') :
    ∃ arms, Yields (Compile.arms places branches) w arms w' ∧
      code = .choose arms (.constant (.bool false)) := by
  obtain ⟨arms, _, made, h⟩ := h.bind
  obtain ⟨rfl, rfl⟩ := h.pure
  exact ⟨arms, made, rfl⟩

theorem chooseElse (h : Yields (node places (.choose span branches (some body))) w code w') :
    ∃ arms between otherwise, Yields (Compile.arms places branches) w arms between ∧
      Yields (node places body) between otherwise w' ∧ code = .choose arms otherwise := by
  obtain ⟨arms, between, made, h⟩ := h.bind
  obtain ⟨otherwise, _, next, h⟩ := h.bind
  obtain ⟨rfl, rfl⟩ := h.pure
  exact ⟨arms, between, otherwise, made, next, rfl⟩

theorem leave (h : Yields (node places (.leave span none)) w code w') :
    ∃ label, w.scopes.loopLabel? = some label ∧ code = .leave label .null ∧ w' = w := by
  obtain ⟨_, _, found, h⟩ := h.bind
  obtain ⟨rfl, rfl⟩ := found.scopes
  split at h
  next label inside => exact ⟨label, inside, h.pure⟩
  next => exact h.refuse.elim

theorem leaveWith (h : Yields (node places (.leave span (some value))) w code w') :
    ∃ label made, w.scopes.loopLabel? = some label ∧ Yields (node places value) w made w' ∧
      code = .leave label made := by
  obtain ⟨_, _, found, h⟩ := h.bind
  obtain ⟨rfl, rfl⟩ := found.scopes
  split at h
  next label inside =>
    obtain ⟨made, _, making, h⟩ := h.bind
    obtain ⟨rfl, rfl⟩ := h.pure
    exact ⟨label, made, inside, making, rfl⟩
  next => exact h.refuse.elim

theorem give (h : Yields (node places (.give span none)) w code w') :
    ∃ label, w.scopes.inFunction = true ∧ Yields Compile.returnLabel w label w' ∧
      code = .give label (.constant (.bool true)) := by
  obtain ⟨_, _, found, h⟩ := h.bind
  obtain ⟨rfl, rfl⟩ := found.scopes
  split at h
  next inside =>
    obtain ⟨label, _, labelled, h⟩ := h.bind
    obtain ⟨rfl, rfl⟩ := h.pure
    exact ⟨label, inside, labelled, rfl⟩
  next => exact h.refuse.elim

/-- A function is given a label for its `return`s before the value is compiled. -/
theorem giveBack (h : Yields (node places (.give span (some value))) w code w') :
    ∃ label between made, w.scopes.inFunction = true ∧
      Yields Compile.returnLabel w label between ∧
        Yields (node places value) between made w' ∧ code = .give label made := by
  obtain ⟨_, _, found, h⟩ := h.bind
  obtain ⟨rfl, rfl⟩ := found.scopes
  split at h
  next inside =>
    obtain ⟨label, between, labelled, h⟩ := h.bind
    obtain ⟨made, _, making, h⟩ := h.bind
    obtain ⟨rfl, rfl⟩ := h.pure
    exact ⟨label, between, made, inside, labelled, making, rfl⟩
  next => exact h.refuse.elim

theorem importFrom {path : List String} {renamed : Option String}
    (h : Yields (node places (.importFrom span path renamed)) w code w') :
    code = .importAs (places span) path ((renamed.or path.getLast?).getD "") ∧ w' = w := by
  obtain ⟨_, _, found, h⟩ := h.bind
  obtain ⟨rfl, rfl⟩ := found.scopes
  split at h
  next => exact h.pure
  next => exact h.refuse.elim

end Yields

end Compile

/-- **A source that compiles has a tree that compiles**, from the workspace of a module on. -/
theorem yields_compile {number : Nat} {source : List Char} {tree : Node} {program : Program}
    (h : (compile number source tree).1 = .ok program) :
    ∃ w, Compile.Yields (Compile.node (fun span => (LineIndex.ofSource source).position span.start) tree)
        ⟨0, ⟨number, 1⟩, [], [.module ⟨number, 0⟩]⟩ program.code w ∧
      program.layout = w.scopes.layout ∧ (compile number source tree).2 = w.requests.reverse := by
  unfold compile at h ⊢
  dsimp only at h ⊢
  cases ran : (Compile.node (fun span => (LineIndex.ofSource source).position span.start) tree).run
      ⟨0, ⟨number, 1⟩, [], [.module ⟨number, 0⟩]⟩ with
  | mk result after =>
    rw [ran] at h
    cases result with
    | error e => cases h
    | ok code =>
      obtain rfl := Except.ok.inj h
      exact ⟨after, ran, rfl, rfl⟩

end HostScript
