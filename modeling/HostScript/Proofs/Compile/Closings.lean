import HostScript.Proofs.Compile.Bare
import HostScript.Proofs.Compile.Returns
import HostScript.Proofs.Syntax.Closings

/-!
# Proofs/Compile/Closings — what a block that is closed by a terminator is compiled to

The codes of the statements are the same up to positions, with null after them if the terminator is an empty
statement (`Code.ClosedAs`).  A function or lambda whose body is such a block is compiled when the other one is,
to a template with the other body and nothing else changed (`definition_closed`).
-/

namespace HostScript

open Node (closing endTakes)
open Code (unplacedAll)

/-- **The code of statements and the code of the same statements with a terminator after them**, up to
positions. -/
def Code.ClosedAs (taken : Bool) (code other : Code) : Prop :=
  ∃ codes others, code = Compile.inOrder codes ∧ other = Compile.inOrder others ∧
    unplacedAll others = if taken then unplacedAll codes else unplacedAll codes ++ [.null]

/-- A definition as it stands in a tree. -/
def Definition.node (d : Definition) (span : Span) : Node :=
  match d.name? with
  | some name => .function span name d.params d.body
  | none => .lambda span d.params d.body

/-- The code that makes a function or lambda from a template. -/
inductive Code.Makes (template : Template Code) : Code → Prop where
  | lambda : Makes template (.closure template)
  | function {position : Position} {name : String} :
    Makes template (.dispatch position (.setMember name) [.thisModule, .closure template])

theorem Code.unplacedAll_concat (codes : List Code) (last : Code) :
    unplacedAll (codes ++ [last]) = unplacedAll codes ++ [last.unplaced] := by
  induction codes with
  | nil => rfl
  | cons _ _ ih => exact congrArg (_ :: ·) ih

/-- Where the terminator is taken, the codes are the same up to positions. -/
theorem Code.ClosedAs.unplaced {code other : Code} (h : code.ClosedAs true other) :
    code.unplaced = other.unplaced := by
  obtain ⟨codes, others, rfl, rfl, same⟩ := h
  have same : unplacedAll others = unplacedAll codes := same
  rw [unplaced_inOrder, unplaced_inOrder, same]

namespace Compile

variable {places places' : Places} {w w' v v' : Workspace} {body body' : List Node} {code code' : Code}
  {span other : Span}

/-- What has been requested is all that may differ. -/
theorem Workspace.scopes_of_asking (h : w.asking [] = v.asking []) : w.scopes = v.scopes := by
  show (w.asking []).scopes = (v.asking []).scopes
  rw [h]

/-! ## Blocks -/

/-- Nodes with one more after them. -/
theorem Yields.concat {trees : List Node} {last : Node} {codes : List Code} {between : Workspace}
    (h : Yields (nodes places trees) w codes between) (k : Yields (node places last) between code w') :
    Yields (nodes places (trees ++ [last])) w (codes ++ [code]) w' := by
  induction trees generalizing w codes with
  | nil =>
    obtain ⟨rfl, rfl⟩ := h.nil
    exact k.of_cons (.of_nil w')
  | cons first rest ih =>
    obtain ⟨_, _, _, made, next, rfl⟩ := h.cons
    exact made.of_cons (ih next)

/-- The codes of statements that are closed. -/
theorem Yields.closing {codes : List Code} (h : Yields (nodes places body) w codes w') :
    Yields (nodes places (closing body)) w (if endTakes false body then codes else codes ++ [.null]) w' := by
  unfold Node.closing Node.closeAfter
  split
  · exact h
  · exact h.concat (show Yields (node places (.empty .none)) w' .null w' from rfl)

theorem constructsOf_append (around : List Body) (trees more : List Node) :
    Node.constructsOf around (trees ++ more) = Node.constructsOf around trees ++ Node.constructsOf around more := by
  induction trees with
  | nil => rfl
  | cons first rest ih =>
    rw [List.cons_append, Node.constructsOf, Node.constructsOf, ih, List.append_assoc]

/-- A terminator may stand anywhere. -/
theorem wellPlaced_closing (around : List Body) (body : List Node) :
    (∀ c ∈ Node.constructsOf around (closing body), c.2.WellPlaced c.1) ↔
      ∀ c ∈ Node.constructsOf around body, c.2.WellPlaced c.1 := by
  unfold Node.closing Node.closeAfter
  split
  · exact Iff.rfl
  · have last : ∀ c ∈ Node.constructsOf around [.empty .none], c.2.WellPlaced c.1 := by
      rintro c mem
      obtain rfl := List.mem_singleton.1 mem
      exact trivial
    rw [constructsOf_append, List.forall_mem_append]
    exact and_iff_left last

/-- **A block that is closed is compiled to the closed code**, whatever has been requested. -/
theorem block_closed (same : SameTrees (closing body) body') (alike : w.asking [] = v.asking [])
    (h : Yields (node places (.block span body)) w code w')
    (k : Yields (node places' (.block other body')) v code' v') :
    code.ClosedAs (endTakes false body) code' ∧ w'.asking [] = v'.asking [] := by
  obtain ⟨codes, made, rfl⟩ := h.block
  obtain ⟨codes', made', rfl⟩ := k.block
  obtain ⟨equal, after⟩ := same.unplaced alike made.closing made'
  refine ⟨⟨codes, codes', rfl, rfl, ?_⟩, after⟩
  rw [← equal]
  split
  · rfl
  · exact Code.unplacedAll_concat codes .null

/-- A block is compiled just if it is when it is closed. -/
theorem block_closed_iff {around : List Body} (stands : w.scopes.Stand around)
    (same : SameTrees (closing body) body') (alike : w.asking [] = v.asking []) (places places' : Places)
    (span other : Span) : (∃ code w', Yields (node places (.block span body)) w code w') ↔
      ∃ code v', Yields (node places' (.block other body')) v code v' := by
  have scopes : w.scopes = v.scopes := Workspace.scopes_of_asking alike
  rw [yields_node_iff stands, yields_node_iff (scopes ▸ stands), Node.constructs, Node.constructs,
    List.forall_mem_cons, List.forall_mem_cons, ← same.wellPlaced around, wellPlaced_closing]
  exact Iff.rfl

/-! ## Definitions -/

/-- The workspace in which the body of a function or lambda begins. -/
def Workspace.entering (w : Workspace) (params : List String) : Workspace :=
  { w with next := { w.next with number := w.next.number + 1 }, scopes := .function w.next params :: w.scopes }

/-- **A definition whose body is closed** makes the template with the closed body. -/
theorem definition_closed {name? : Option String} {params : List String} {inner outer : Span}
    (same : SameTrees (closing body) body') (alike : w.asking [] = v.asking [])
    (h : Yields (node places (Definition.node ⟨name?, params, .block inner body⟩ span)) w code w')
    (k : Yields (node places' (Definition.node ⟨name?, params, .block outer body'⟩ other)) v code' v') :
    ∃ template closed, code.Makes template ∧ code'.Makes { template with body := closed } ∧
      template.body.ClosedAs (endTakes false body) closed ∧
      (template.returnLabel?.isSome = true ↔ name? = none ∨ (Node.block inner body).returns ≠ []) := by
  have defines := (derives_node places _ h).answers.inner
  have entered : (w.entering params).asking [] = (v.entering params).asking [] :=
    congrArg (fun u : Workspace => u.entering params) alike
  cases name? with
  | some name =>
    obtain ⟨made, inside, compiled, rfl, -⟩ := Yields.function h
    obtain ⟨made', inside', compiled', rfl, -⟩ := Yields.function k
    obtain ⟨closed, after⟩ := block_closed same entered compiled compiled'
    have scopes := Workspace.scopes_of_asking after
    rw [← scopes]
    refine ⟨_, made', .function, .function, closed, ?_⟩
    rw [Code.answers, Code.answersOf, Code.answersOf, Code.answersOf, Strands.append_empty] at defines
    cases defines with
    | cons own _ => exact own.label
  | none =>
    obtain ⟨label, opened, made, inside, labelled, compiled, rfl, -⟩ := Yields.lambda h
    obtain ⟨label', opened', made', inside', labelled', compiled', rfl, -⟩ := Yields.lambda k
    have left : Yields returnLabel ((w.entering params).asking []) label _ := labelled.returnLabel_asking []
    have right : Yields returnLabel ((v.entering params).asking []) label' _ :=
      labelled'.returnLabel_asking []
    rw [entered] at left
    obtain ⟨-, inner_alike⟩ := left.unique right
    obtain ⟨closed, after⟩ := block_closed same inner_alike compiled compiled'
    have scopes := Workspace.scopes_of_asking after
    rw [← scopes]
    refine ⟨_, made', .lambda, .lambda, closed, ?_⟩
    cases defines with
    | cons own _ => exact own.label

/-- A function or lambda is compiled just if it is when its body is closed. -/
theorem definition_closed_iff {around : List Body} (stands : w.scopes.Stand around)
    (same : SameTrees (closing body) body') (alike : w.asking [] = v.asking []) (places places' : Places)
    (name? : Option String) (params : List String) (span other inner outer : Span) :
    (∃ code w', Yields (node places (Definition.node ⟨name?, params, .block inner body⟩ span)) w code w') ↔
      ∃ code v',
        Yields (node places' (Definition.node ⟨name?, params, .block outer body'⟩ other)) v code v' := by
  have scopes : w.scopes = v.scopes := Workspace.scopes_of_asking alike
  have inside := (wellPlaced_closing (.function :: around) body).symm.trans (same.wellPlaced _)
  rw [yields_node_iff stands, yields_node_iff (scopes ▸ stands)]
  cases name? <;>
  · rw [Definition.node, Definition.node, Node.constructs, Node.constructs, List.forall_mem_cons,
      List.forall_mem_cons, Node.constructs, Node.constructs, List.forall_mem_cons, List.forall_mem_cons]
    exact and_congr Iff.rfl (and_congr Iff.rfl inside)

end Compile

/-! ## Programs -/

theorem compile_of_yields {number : Nat} {source : List Char} {tree : Node} {code : Code}
    {w : Compile.Workspace}
    (h : Compile.Yields (Compile.node (fun span => (LineIndex.ofSource source).position span.start) tree)
      ⟨0, ⟨number, 1⟩, [], [.module ⟨number, 0⟩]⟩ code w) :
    (compile number source tree).1 = .ok ⟨code, w.scopes.layout⟩ := by
  unfold compile
  dsimp only
  rw [h]
  rfl

/-- **A source whose statements are closed** is a program just if it is without the terminator, with the
same layout and the closed code. -/
theorem program_closed {body body' : List Node} (same : SameTrees (closing body) body') (number : Nat)
    (source source' : List Char) (span other : Span) :
    ((∃ program, (compile number source (.block span body)).1 = .ok program) ↔
      ∃ program, (compile number source' (.block other body')).1 = .ok program) ∧
    ∀ program program', (compile number source (.block span body)).1 = .ok program →
      (compile number source' (.block other body')).1 = .ok program' →
      program'.layout = program.layout ∧ program.code.ClosedAs (endTakes false body) program'.code := by
  have stands : Scopes.Stand [.module ⟨number, 0⟩] [] := rfl
  constructor
  · have both := Compile.block_closed_iff (w := ⟨0, ⟨number, 1⟩, [], [.module ⟨number, 0⟩]⟩) stands same rfl
      (fun span => (LineIndex.ofSource source).position span.start)
      (fun span => (LineIndex.ofSource source').position span.start) span other
    constructor
    · rintro ⟨program, compiled⟩
      obtain ⟨w, made, -⟩ := yields_compile compiled
      obtain ⟨code, v, made'⟩ := both.1 ⟨_, w, made⟩
      exact ⟨_, compile_of_yields made'⟩
    · rintro ⟨program, compiled⟩
      obtain ⟨v, made, -⟩ := yields_compile compiled
      obtain ⟨code, w, made'⟩ := both.2 ⟨_, v, made⟩
      exact ⟨_, compile_of_yields made'⟩
  · intro program program' compiled compiled'
    obtain ⟨w, made, layout, -⟩ := yields_compile compiled
    obtain ⟨v, made', layout', -⟩ := yields_compile compiled'
    obtain ⟨closed, after⟩ := Compile.block_closed same rfl made made'
    refine ⟨?_, closed⟩
    rw [layout, layout', Compile.Workspace.scopes_of_asking after]

/-- **A source with a terminator more** at its end, or where it is taken, is a program just if it is one
without, with the same layout, and with the same code up to positions or the closed code. -/
theorem ClosedAt.programs {tokens : List Token} {i : Nat} {word : Token} {body : List Node} {tree tree' : Node}
    (h : ClosedAt tokens i word body tree tree') (either : endTakes false body = true ∨ word.kind = .endOfInput)
    (number : Nat) (source other : List Char) :
    ((∃ program, (compile number source tree).1 = .ok program) ↔
      ∃ program, (compile number other tree').1 = .ok program) ∧
    ∀ program program', (compile number source tree).1 = .ok program →
      (compile number other tree').1 = .ok program' → program'.layout = program.layout ∧
        if endTakes false body then program.code.unplaced = program'.code.unplaced
        else program.code.ClosedAs false program'.code := by
  by_cases taken : endTakes false body = true
  · have same := h.same taken
    constructor
    · constructor
      · rintro ⟨program, compiled⟩
        obtain ⟨program', compiled', -⟩ := same.compile compiled other
        exact ⟨program', compiled'⟩
      · rintro ⟨program, compiled⟩
        obtain ⟨program', compiled', -⟩ := SameTree.compile same.symm compiled source
        exact ⟨program', compiled'⟩
    · intro program program' compiled compiled'
      obtain ⟨made, found, layout, codes⟩ := same.compile compiled other
      obtain rfl := Except.ok.inj (found.symm.trans compiled')
      exact ⟨layout, (if_pos taken).mpr codes⟩
  · obtain ⟨span, place, body', rfl, rfl, same⟩ := h.whole (either.resolve_left taken)
    obtain ⟨both, closed⟩ := program_closed same number source other span place
    refine ⟨both, fun program program' compiled compiled' => ?_⟩
    obtain ⟨layout, codes⟩ := closed program program' compiled compiled'
    rw [Bool.not_eq_true] at taken
    rw [taken] at codes ⊢
    exact ⟨layout, codes⟩

end HostScript
