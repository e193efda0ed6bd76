import HostScript.Proofs.Compile.Derivations
import HostScript.Proofs.Compile.Fits
import HostScript.Proofs.Compile.Strands

/-!
# Proofs/Compile/Returns — which `return`s belong to which body

A `return` belongs to the innermost function or lambda around it, through all loops and choices.  Taken
apart by that, a tree and the code that it is compiled to go together: each definition becomes a template,
with its own `return`s in order, and the template has a label just if the definition is a lambda or has a
`return` of its own, wherever that stands (`answers_compile`).

The label of a function is made when the first `return` that belongs to it is compiled, so `Scopes.marks`
says which scopes are functions with a label, and a compiled node marks the innermost function if it has
`return`s of its own.
-/

namespace HostScript

/-! ## Returns of trees and codes -/

/-- A definition of a function or lambda; a lambda has no name. -/
structure Definition where
  name? : Option String
  params : List String
  body : Node

namespace Node

mutual

/-- The `return`s of a node itself, with what they return, and the definitions inside it with theirs. -/
@[simp] def answers : Node → Strands Definition (Option Node)
  | .literal _ _ | .named _ _ | .importFrom _ _ _ | .empty _ => ∅
  | .member _ part _ _ | .unary _ _ part | .loop _ part | .plain _ part => answers part
  | .index _ first second | .binary _ _ first second | .assign _ first second =>
    answers first ++ answers second
  | .call _ first args | .create _ first args => answers first ++ answersOf args
  | .declare _ _ none | .leave _ none => ∅
  | .declare _ _ (some value) | .leave _ (some value) => answers value
  | .function _ name params body => (answers body).within ⟨some name, params, body⟩
  | .lambda _ params body => (answers body).within ⟨none, params, body⟩
  | .choose _ branches none => answersOfArms branches
  | .choose _ branches (some otherwise) => answersOfArms branches ++ answers otherwise
  | .give _ none => .one none
  | .give _ (some value) => .one (some value) ++ answers value
  | .block _ statements => answersOf statements

/-- The `return`s and definitions of nodes, in order. -/
@[simp] def answersOf : List Node → Strands Definition (Option Node)
  | [] => ∅
  | first :: rest => answers first ++ answersOf rest

/-- The `return`s and definitions of tests and bodies, in order. -/
@[simp] def answersOfArms : List (Node × Node) → Strands Definition (Option Node)
  | [] => ∅
  | (test, body) :: rest => answers test ++ (answers body ++ answersOfArms rest)

end

/-- The `return`s of a node itself, with what they return. -/
def returns (tree : Node) : List (Option Node) := tree.answers.own

/-- A dynamic operation has the `return`s of its operands. -/
theorem answers_of_operation {tree : Node} {s : Signature} {trees : List Node}
    (h : tree.operation? = some (s, trees)) : tree.answers = answersOf trees := by
  cases tree with
  | assign _ target _ =>
    cases target with
    | member | index =>
      cases h
      simp [Strands.append_assoc]
    | _ => cases h
  | call _ callee _ =>
    cases callee with
    | named => cases h
    | _ =>
      cases h
      simp
  | member | index | binary | unary =>
    cases h
    simp
  | _ => cases h

end Node

namespace Code

mutual

/-- What the `return`s of a code itself return, and the templates inside it with theirs. -/
@[simp] def answers : Code → Strands (Template Code) Code
  | .null | .constant _ | .thisModule | .read _ | .importAs _ _ _ => ∅
  | .write _ value | .leave _ value => answers value
  | .dispatch _ _ operands => answersOf operands
  | .closure template => (answers template.body).within template
  | .choose branches otherwise => answersOfArms branches ++ answers otherwise
  | .loop _ body => answers body
  | .give _ value => .one value ++ answers value
  | .sequence codes => answersOf codes

/-- The `return`s and templates of codes, in order. -/
@[simp] def answersOf : List Code → Strands (Template Code) Code
  | [] => ∅
  | code :: rest => answers code ++ answersOf rest

/-- The `return`s and templates of tests and bodies, in order. -/
@[simp] def answersOfArms : List (Code × Code) → Strands (Template Code) Code
  | [] => ∅
  | (test, body) :: rest => answers test ++ (answers body ++ answersOfArms rest)

end

/-- What the `return`s of a code itself return. -/
def gives (code : Code) : List Code := code.answers.own

/-- Whether the templates listed have the `return`s of their own bodies, and what is inside them is listed
as well. -/
def Closed (s : Strands (Template Code) Code) : Prop :=
  ∀ found ∈ s.inner, found.2 = found.1.body.gives ∧ found.1.body.answers.inner ⊆ s.inner

theorem Closed.append {s t : Strands (Template Code) Code} (left : Closed s) (right : Closed t) :
    Closed (s ++ t) := by
  intro found mem
  rcases List.mem_append.1 mem with mem | mem
  · exact ⟨(left found mem).1, List.Subset.trans (left found mem).2 (List.subset_append_left _ _)⟩
  · exact ⟨(right found mem).1, List.Subset.trans (right found mem).2 (List.subset_append_right _ _)⟩

theorem Closed.within {template : Template Code} (h : Closed template.body.answers) :
    Closed (template.body.answers.within template) := by
  have below := List.subset_cons_self (template, template.body.gives) template.body.answers.inner
  refine List.forall_mem_cons.2 ⟨⟨rfl, below⟩, fun found mem => ?_⟩
  exact ⟨(h found mem).1, List.Subset.trans (h found mem).2 below⟩

mutual

/-- **The templates of a code are closed.** -/
theorem closed_answers : ∀ code : Code, Closed code.answers
  | .null | .constant _ | .thisModule | .read _ | .importAs _ _ _ => nofun
  | .write _ value | .leave _ value | .loop _ value | .give _ value => closed_answers value
  | .dispatch _ _ codes | .sequence codes => closed_answersOf codes
  | .closure template => (closed_answers template.body).within
  | .choose branches otherwise => (closed_answersOfArms branches).append (closed_answers otherwise)

theorem closed_answersOf : ∀ codes : List Code, Closed (answersOf codes)
  | [] => nofun
  | code :: rest => (closed_answers code).append (closed_answersOf rest)

theorem closed_answersOfArms : ∀ branches : List (Code × Code), Closed (answersOfArms branches)
  | [] => nofun
  | (test, body) :: rest =>
    (closed_answers test).append ((closed_answers body).append (closed_answersOfArms rest))

end

theorem answers_inOrder (codes : List Code) : (Compile.inOrder codes).answers = answersOf codes := by
  match codes with
  | [] | _ :: _ :: _ => rfl
  | [code] => simp [Compile.inOrder]

end Code

/-! ## Functions with a label -/

namespace Scopes

/-- Which scopes are functions, and whether these have a label. -/
def marks (scopes : Scopes) : List (Option Bool) :=
  List.map (fun s => if s.kind = .function then some s.returnLabel?.isSome else none) scopes

/-- Marks the innermost function. -/
def mark : List (Option Bool) → List (Option Bool)
  | [] => []
  | none :: rest => none :: mark rest
  | some _ :: rest => some true :: rest

theorem mark_mark (marks : List (Option Bool)) : mark (mark marks) = mark marks := by
  induction marks with
  | nil => rfl
  | cons first rest ih =>
    cases first with
    | none => exact congrArg (none :: ·) ih
    | some _ => rfl

theorem marks_allocate (v : Variable) (a : Scopes) : (a.allocate v).2.marks = a.marks := by
  induction a with
  | nil => rfl
  | cons s outer ih =>
    unfold allocate
    split
    · rfl
    · exact congrArg (_ :: ·) ih

theorem marks_declareLocal (a : Scopes) (name : String) :
    (a.declareLocal name).2.marks = a.marks := by
  cases a with
  | nil => rfl
  | cons s outer =>
    unfold declareLocal
    dsimp only
    cases s.locals.lookup (Text.fold name) with
    | some index => rfl
    | none =>
      have kept := marks_allocate (s.variableOf (Text.fold name)) (s :: outer)
      dsimp only
      split
      next allocated =>
        rw [allocated] at kept
        exact kept
      next allocated =>
        rw [allocated] at kept
        exact kept

theorem marks_declareGlobal (a : Scopes) (name : String) :
    (a.declareGlobal name).2.marks = a.marks := by
  match a with
  | [] => rfl
  | [s] => exact marks_declareLocal [s] name
  | s :: t :: outer => exact congrArg (_ :: ·) (marks_declareGlobal (t :: outer) name)

theorem marks_function {s : Scope} (function : s.kind = .function) (outer : Scopes) :
    marks (s :: outer) = some s.returnLabel?.isSome :: outer.marks :=
  congrArg (· :: outer.marks) (if_pos function)

theorem marks_other {s : Scope} (other : s.kind ≠ .function) (outer : Scopes) :
    marks (s :: outer) = none :: outer.marks := congrArg (· :: outer.marks) (if_neg other)

theorem marks_setReturnLabel (a : Scopes) (label : Label) :
    (a.setReturnLabel label).marks = mark a.marks := by
  induction a with
  | nil => rfl
  | cons s outer ih =>
    unfold setReturnLabel
    split
    next function =>
      rw [marks_function function]
      exact marks_function (s := { s with returnLabel? := some label }) function outer
    next other =>
      rw [marks_other other, marks_other other, ih]
      rfl

/-- A function that has a label is marked. -/
theorem mark_marks {a : Scopes} {label : Label} (h : a.returnLabel? = some label) :
    mark a.marks = a.marks := by
  induction a with
  | nil => rfl
  | cons s outer ih =>
    by_cases function : s.kind = .function
    · rw [returnLabel?_of_function function] at h
      rw [marks_function function, h]
      rfl
    · rw [returnLabel?_of_ne function] at h
      rw [marks_other function, mark, ih h]

/-- Whether the innermost scope, if it is a function, has a label. -/
theorem isSome_returnLabel? {a : Scopes} {marked : Bool} {rest : List (Option Bool)}
    (h : a.marks = some marked :: rest) : a.returnLabel?.isSome = marked := by
  cases a with
  | nil => cases h
  | cons s outer =>
    by_cases function : s.kind = .function
    · rw [marks_function function] at h
      rw [returnLabel?_of_function function]
      exact Option.some.inj (List.cons.inj h).1
    · rw [marks_other function] at h
      cases (List.cons.inj h).1

theorem marks_drop (a : Scopes) : marks (a.drop 1) = a.marks.drop 1 := by
  cases a <;> rfl

end Scopes

namespace Compile

open Scopes (mark)

/-! ## What is compiled -/

/-- **What a `return` is compiled to**: one without a value returns true. -/
def Returns (places : Places) : Option Node → Code → Prop
  | none, code => code = .constant (.bool true)
  | some value, code => ∃ w w', Yields (node places value) w code w'

/-- **What a definition with its own `return`s is compiled to.**  The template has a label if the
definition is a lambda, or if it has `return`s of its own. -/
structure Defines (places : Places) (definition : Definition × List (Option Node))
    (template : Template Code × List Code) : Prop where
  name : template.1.name = definition.1.name?.getD "lambda"
  arity : template.1.arity = definition.1.params.length
  body : ∃ w w', Yields (node places definition.1.body) w template.1.body w'
  own : definition.2 = definition.1.body.returns ∧ template.2 = template.1.body.gives
  returns : List.Forall₂ (Returns places) definition.2 template.2
  label : template.1.returnLabel?.isSome = true ↔ definition.1.name? = none ∨ definition.2 ≠ []

/-- What a template returns is what a `return` of its definition is compiled to. -/
theorem Defines.exists_return {places : Places} {definition : Definition × List (Option Node)}
    {template : Template Code × List Code} (h : Defines places definition template) {code : Code}
    (mem : code ∈ template.2) : ∃ value? ∈ definition.2, Returns places value? code := by
  have returns := h.returns
  generalize definition.2 = written at *
  generalize template.2 = made at *
  induction returns with
  | nil => cases mem
  | cons first _ ih =>
    rcases List.mem_cons.1 mem with rfl | later
    · exact ⟨_, List.mem_cons_self, first⟩
    · obtain ⟨value?, among, returns⟩ := ih later
      exact ⟨value?, List.mem_cons_of_mem _ among, returns⟩

/-- Marks the innermost function if there are `return`s. -/
def marked (returns : List (Option Node)) (marks : List (Option Bool)) : List (Option Bool) :=
  if returns = [] then marks else mark marks

/-- **Codes answer as trees do**, between two places: the innermost function is marked if there are
`return`s, and these and the definitions are compiled one by one. -/
structure Answers (places : Places) (a b : Scopes) (tree : Strands Definition (Option Node))
    (code : Strands (Template Code) Code) : Prop where
  marks : b.marks = marked tree.own a.marks
  own : List.Forall₂ (Returns places) tree.own code.own
  inner : List.Forall₂ (Defines places) tree.inner code.inner

theorem marked_append (some more : List (Option Node)) (marks : List (Option Bool)) :
    marked (some ++ more) marks = marked more (marked some marks) := by
  unfold marked
  by_cases first : some = []
  · rw [if_pos first, first, List.nil_append]
  · rw [if_neg first, if_neg (fun both => first (List.append_eq_nil_iff.1 both).1)]
    split
    · rfl
    · rw [Scopes.mark_mark]

/-- Nothing but functions and lambdas is marked. -/
theorem marked_other (returns : List (Option Node)) (marks : List (Option Bool)) :
    marked returns (none :: marks) = none :: marked returns marks := by
  unfold marked
  split <;> rfl

theorem marked_function (returns : List (Option Node)) (own : Bool) (marks : List (Option Bool)) :
    marked returns (some own :: marks) = some (own || !returns.isEmpty) :: marks := by
  unfold marked
  cases returns with
  | nil => rw [if_pos rfl, List.isEmpty_nil, Bool.not_true, Bool.or_false]
  | cons _ _ => rw [if_neg (List.cons_ne_nil _ _), mark, List.isEmpty_cons, Bool.not_false, Bool.or_true]

theorem marks_returnLabel {label : Label} {w w' : Workspace} (h : Yields returnLabel w label w') :
    w'.scopes.marks = mark w.scopes.marks := by
  rcases h.returnLabel with ⟨known, rfl⟩ | ⟨-, rfl, rfl⟩
  · exact (Scopes.mark_marks known).symm
  · exact Scopes.marks_setReturnLabel _ _

namespace Answers

variable {places : Places} {a b c : Scopes} {tree more : Strands Definition (Option Node)}
  {code other : Strands (Template Code) Code}

theorem nil (kept : b.marks = a.marks) : Answers places a b ∅ ∅ := ⟨kept, .nil, .nil⟩

theorem append (h : Answers places a b tree code) (k : Answers places b c more other) :
    Answers places a c (tree ++ more) (code ++ other) :=
  ⟨(k.marks.trans (congrArg _ h.marks)).trans (marked_append _ _ _).symm,
    List.rel_append h.own k.own, List.rel_append h.inner k.inner⟩

theorem after (h : Answers places a b tree code) (same : c.marks = b.marks) :
    Answers places a c tree code := ⟨same.trans h.marks, h.own, h.inner⟩

/-- A `return` is compiled after the function has been given a label. -/
theorem single {value? : Option Node} {value : Code} (labelled : b.marks = mark a.marks)
    (returns : Returns places value? value) : Answers places a b (.one value?) (.one value) :=
  ⟨labelled, .cons returns .nil, .nil⟩

/-- A loop is passed by `return`s. -/
theorem loop (h : Answers places b c tree code) {s : Scope} (other : s.kind ≠ .function)
    (opens : b = s :: a) : Answers places a (c.drop 1) tree code := by
  subst opens
  refine ⟨?_, h.own, h.inner⟩
  rw [Scopes.marks_drop, h.marks, Scopes.marks_other other, marked_other]
  rfl

/-- **The body of a function or lambda** keeps its `return`s to itself. -/
theorem within (h : Answers places b c tree code) {labelled : Bool}
    (opens : b.marks = some labelled :: a.marks) {definition : Definition} {template : Template Code}
    (name : template.name = definition.name?.getD "lambda")
    (arity : template.arity = definition.params.length)
    (body : ∃ w w', Yields (node places definition.body) w template.body w')
    (own : tree = definition.body.answers ∧ code = template.body.answers)
    (label : template.returnLabel? = c.returnLabel?)
    (lambda : labelled = definition.name?.isNone) :
    Answers places a (c.drop 1) (tree.within definition) (code.within template) := by
  have marks := h.marks
  rw [opens, marked_function] at marks
  refine ⟨?_, .nil, .cons ⟨name, arity, body, ⟨congrArg Strands.own own.1, congrArg Strands.own own.2⟩,
    h.own, ?_⟩ h.inner⟩
  · rw [Scopes.marks_drop, marks]
    rfl
  · rw [label, Scopes.isSome_returnLabel? marks, lambda, Bool.or_eq_true, Option.isNone_iff_eq_none,
      Bool.not_eq_true', List.isEmpty_eq_false_iff]

end Answers

/-- Compiled work answers as it is written. -/
def Work.Answers (places : Places) (w : Workspace) (work : Work) (w' : Workspace) : Prop :=
  match work with
  | one tree code => Compile.Answers places w.scopes w'.scopes tree.answers code.answers
  | all trees codes =>
    Compile.Answers places w.scopes w'.scopes (Node.answersOf trees) (Code.answersOf codes)
  | arms branches codes =>
    Compile.Answers places w.scopes w'.scopes (Node.answersOfArms branches) (Code.answersOfArms codes)

variable {places : Places} {w w' : Workspace} {work : Work}

/-- **Compiled work answers as it is written.** -/
theorem Compiles.answers (h : Compiles places w work w') : work.Answers places w w' := by
  induction h with
  | nil | noArms | literal | empty | leave | importFrom => exact .nil rfl
  | read | lookup => exact .nil rfl
  | cons _ _ made next => exact made.append next
  | arm _ _ _ made next last => exact made.append (next.append last)
  | plain _ made | leaveWith _ _ made | create _ made => exact made
  | call _ _ made | invoke _ _ made | assign _ _ made => exact made
  | block _ made =>
    rw [Work.Answers, Code.answers_inOrder]
    exact made
  | operation is_operation _ made =>
    rw [Work.Answers, Node.answers_of_operation is_operation]
    exact made
  | declare => exact .nil (Scopes.marks_declareLocal _ _)
  | declareWith _ made => exact made.after (Scopes.marks_declareLocal _ _)
  | assignNew _ _ made => exact made.after (Scopes.marks_declareGlobal _ _)
  | function _ body made =>
    rw [Work.Answers, Code.answers, Code.answersOf, Code.answersOf, Code.answersOf, Strands.append_empty]
    exact made.within (Scopes.marks_function rfl _) rfl rfl ⟨_, _, body.yields⟩ ⟨rfl, rfl⟩ rfl rfl
  | lambda labelled body made =>
    have opens := (marks_returnLabel labelled).trans (congrArg mark (Scopes.marks_function rfl _))
    exact made.within opens rfl rfl ⟨_, _, body.yields⟩ ⟨rfl, rfl⟩ rfl rfl
  | loop _ made => exact made.loop (show ScopeKind.loop _ ≠ .function from nofun) rfl
  | choose _ made =>
    rw [Work.Answers, Code.answers, Code.answers, Strands.append_empty]
    exact made
  | chooseElse _ _ made next => exact made.append next
  | give _ labelled => exact .single (marks_returnLabel labelled) rfl
  | giveBack _ labelled value made =>
    have returned : Returns places (some _) _ := ⟨_, _, value.yields⟩
    exact (Answers.single (marks_returnLabel labelled) returned).append made

end Compile

/-- **The definitions of a program become its templates**, one by one: what is returned in the body of each
is compiled in order, and a template has a label just if its definition is a lambda or has a `return` of its
own. -/
theorem answers_compile {number : Nat} {source : List Char} {tree : Node} {program : Program}
    (h : (compile number source tree).1 = .ok program) :
    List.Forall₂ (Compile.Defines fun span => (LineIndex.ofSource source).position span.start)
      tree.answers.inner program.code.answers.inner := by
  obtain ⟨_, made, -, -⟩ := yields_compile h
  exact (Compile.derives_node _ tree made).answers.inner

end HostScript
