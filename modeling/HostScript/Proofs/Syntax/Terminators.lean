import HostScript.Proofs.Syntax.Beside
import HostScript.Proofs.Syntax.Composition

/-!
# Proofs/Syntax/Terminators — what a terminator after the last statement belongs to

Five forms of statement read on over a terminator.  Others are over with their last part, so that a
terminator after them belongs to that part, if it takes one (`Node.takes`), and is an empty statement of its
own else: `Node.closing` is what becomes of the statements of a block.

A tree in which one block is closed differs from the other one there and nowhere else, which is what
`Node.Exchanged` says, part by part along the way to the block.
-/

namespace HostScript

namespace Node

/-! ## Statements that take a terminator -/

mutual

/-- Whether a statement takes a terminator that is written after it. -/
def takes : Node → Bool
  | .plain _ _ | .declare _ _ _ | .give _ _ | .leave _ _ | .importFrom _ _ _ => true
  | .loop _ body | .function _ _ _ body => takes body
  | .choose _ branches none => takesLast false branches
  | .choose _ _ (some otherwise) => takes otherwise
  | _ => false

/-- Whether the last body of some arms takes a terminator, or what is said if there are none. -/
def takesLast (taken : Bool) : List (Node × Node) → Bool
  | [] => taken
  | (_, body) :: rest => takesLast (takes body) rest

end

theorem takes_choose (span : Span) (branches : List (Node × Node)) (otherwise : Option Node) :
    takes (.choose span branches otherwise) =
      (otherwise.map takes).getD (takesLast false branches) := by
  cases otherwise <;> rfl

/-- Whether the last of some statements takes a terminator, or what is said if there are none. -/
def endTakes (taken : Bool) (statements : List Node) : Bool := (statements.getLast?.map takes).getD taken

theorem endTakes_cons (taken : Bool) (first : Node) (rest : List Node) :
    endTakes taken (first :: rest) = endTakes first.takes rest := by
  cases rest with
  | nil => rfl
  | cons second rest => rw [endTakes, endTakes, List.getLast?_cons_cons]; rfl

/-- Statements with a terminator after them, which is taken or an empty statement. -/
def closeAfter (taken : Bool) (statements : List Node) : List Node :=
  if endTakes taken statements then statements else statements ++ [.empty .none]

/-- **The statements of a block that is closed by a terminator.** -/
def closing (statements : List Node) : List Node := closeAfter false statements

theorem closeAfter_cons (taken : Bool) (first : Node) (rest : List Node) :
    closeAfter taken (first :: rest) = first :: closeAfter first.takes rest := by
  rw [closeAfter, closeAfter, endTakes_cons]
  split <;> rfl

/-! ## Parts that are exchanged -/

/-- The arms and the last body that the parts of a conditional make. -/
def armsOf : List Node → List (Node × Node) × Option Node
  | test :: body :: rest => ((test, body) :: (armsOf rest).1, (armsOf rest).2)
  | rest => ([], rest.head?)

/-- A tree with other parts. -/
def withChildren : Node → List Node → Node
  | .member span _ name kind, [target] => .member span target name kind
  | .index span _ _, [target, place] => .index span target place
  | .binary span op _ _, [left, right] => .binary span op left right
  | .unary span op _, [operand] => .unary span op operand
  | .assign span _ _, [target, value] => .assign span target value
  | .call span _ _, callee :: args => .call span callee args
  | .create span _ _, target :: args => .create span target args
  | .declare span name _, parts => .declare span name parts.head?
  | .function span name params _, [body] => .function span name params body
  | .lambda span params _, [body] => .lambda span params body
  | .choose span _ _, parts => .choose span (armsOf parts).1 (armsOf parts).2
  | .loop span _, [body] => .loop span body
  | .leave span _, parts => .leave span parts.head?
  | .give span _, parts => .give span parts.head?
  | .block span _, parts => .block span parts
  | .plain span _, [expression] => .plain span expression
  | tree, _ => tree

/-- **A tree in which a part has been exchanged for another one.** -/
inductive Exchanged (x y : Node) : Node → Node → Prop where
  | here : Exchanged x y x y
  | child {tree a b : Node} {before after : List Node} : tree.children = before ++ a :: after →
    Exchanged x y a b → Exchanged x y tree (tree.withChildren (before ++ b :: after))

theorem armsOf_parts (branches : List (Node × Node)) (otherwise : Option Node) :
    armsOf (branches.flatMap (fun branch => [branch.1, branch.2]) ++ otherwise.toList) =
      (branches, otherwise) := by
  induction branches with
  | nil => cases otherwise <;> rfl
  | cons branch rest ih =>
    rw [List.flatMap_cons, List.append_assoc, List.cons_append, List.cons_append, List.nil_append, armsOf, ih]

/-- A tree consists of its parts. -/
theorem withChildren_children (tree : Node) : tree.withChildren tree.children = tree := by
  cases tree with
  | declare _ _ init | leave _ init | give _ init => cases init <;> rfl
  | choose span branches otherwise =>
    exact congrArg (fun parts => Node.choose span parts.1 parts.2) (armsOf_parts branches otherwise)
  | _ => rfl

/-- A part that is exchanged for itself changes nothing. -/
theorem Exchanged.self {x a b : Node} (h : Exchanged x x a b) : b = a := by
  induction h with
  | here => rfl
  | child split _ ih => rw [ih, ← split, withChildren_children]

theorem armsOf_bareAll : ∀ parts : List Node,
    armsOf (bareAll parts) = (bareBranches (armsOf parts).1, (armsOf parts).2.map bare)
  | [] | [_] => rfl
  | test :: body :: rest => by
    rw [bareAll, bareAll, armsOf, armsOf, armsOf_bareAll rest]
    rfl

/-- Parts are exchanged in a tree without its spans as in the tree. -/
theorem bare_withChildren (tree : Node) (parts : List Node) :
    (tree.withChildren parts).bare = tree.bare.withChildren (bareAll parts) := by
  cases tree with
  | literal | named | importFrom | empty => rfl
  | call | create => cases parts <;> rfl
  | block => rfl
  | declare _ _ init | leave _ init | give _ init => cases init <;> cases parts <;> rfl
  | choose span branches otherwise =>
    have made (branches : List (Node × Node)) (otherwise : Option Node) : (Node.choose span branches
        otherwise).bare = .choose .none (bareBranches branches) (otherwise.map bare) := by
      cases otherwise <;> rfl
    rw [withChildren, made, made, withChildren, armsOf_bareAll]
  | member | unary | function | lambda | loop | plain => match parts with
    | [] | [_] | _ :: _ :: _ => rfl
  | index | binary | assign => match parts with
    | [] | [_] | [_, _] | _ :: _ :: _ :: _ => rfl

end Node

open Node

/-- A tree that is a block up to spans is a block. -/
theorem SameTree.exists_block {span : Span} {body : List Node} {tree : Node}
    (same : SameTree (.block span body) tree) :
    ∃ other body', tree = .block other body' ∧ SameTrees body body' := by
  cases tree with
  | block other body' => exact ⟨other, body', rfl, (Node.block.inj same).2⟩
  | declare _ _ init | leave _ init | give _ init => cases init <;> cases same
  | choose _ _ otherwise => cases otherwise <;> cases same
  | _ => cases same

/-- A tree with other parts depends on their spans as little as they do. -/
theorem SameTrees.withChildren {as bs : List Node} (same : SameTrees as bs) (tree : Node) :
    SameTree (tree.withChildren as) (tree.withChildren bs) := by
  have trees : bareAll as = bareAll bs := same
  rw [SameTree, bare_withChildren, bare_withChildren, trees]

/-! ## Trees on the way past a word -/

/-- **Trees that are read on the way past a word that closes a block.**  The word is passed before, after or
between the beginning and the end of what is read; the trees differ in their spans at most, but for a block
that has been exchanged where the word is passed between. -/
def Closes (closed : Node → Node → Prop) : Bool → Bool → Node → Node → Prop
  | false, true, a, b => ∃ x y c, closed x y ∧ Exchanged x y a c ∧ SameTree c b
  | true, false, _, _ => False
  | _, _, a, b => SameTree a b

/-- Lists of trees that are read on the way past a word that closes a block. -/
inductive ClosesAll (closed : Node → Node → Prop) : Bool → Bool → List Node → List Node → Prop where
  | nil {passed : Bool} : ClosesAll closed passed passed [] []
  | cons {passed now after : Bool} {a b : Node} {as bs : List Node} : Closes closed passed now a b →
    ClosesAll closed now after as bs → ClosesAll closed passed after (a :: as) (b :: bs)

section

variable {closed : Node → Node → Prop} {passed now after : Bool} {a b first second : Node}
  {as bs cs ds : List Node}

theorem Closes.of_same (same : SameTree a b) (passed : Bool) : Closes closed passed passed a b := by
  cases passed <;> exact same

theorem Closes.same (h : Closes closed passed passed a b) : SameTree a b := by
  cases passed <;> exact h

/-- A word that has been passed is not passed again. -/
theorem ClosesAll.stays (h : ClosesAll closed passed after as bs) (before : passed = true) :
    after = true := by
  induction h with
  | nil => exact before
  | @cons passed now _ _ _ _ _ one _ ih =>
    subst before
    cases now with
    | true => exact ih rfl
    | false => exact one.elim

/-- Trees among which no block or one block has been exchanged. -/
theorem ClosesAll.exchanged (h : ClosesAll closed passed after as bs) :
    passed = after ∧ SameTrees as bs ∨
      passed = false ∧ after = true ∧ ∃ before c rest x y d, as = before ++ c :: rest ∧ closed x y ∧
        Exchanged x y c d ∧ SameTrees (before ++ d :: rest) bs := by
  induction h with
  | nil => exact .inl ⟨rfl, rfl⟩
  | @cons passed now after a b as bs one _ ih =>
    cases passed with
    | true =>
      cases now with
      | false => exact one.elim
      | true =>
        rcases ih with ⟨rfl, same⟩ | ⟨never, -⟩
        · exact .inl ⟨rfl, one.same.cons same⟩
        · cases never
    | false =>
      cases now with
      | false =>
        rcases ih with ⟨rfl, same⟩ | ⟨-, rfl, before, c, rest, x, y, d, rfl, found, exchanged, same⟩
        · exact .inl ⟨rfl, one.same.cons same⟩
        · exact .inr ⟨rfl, rfl, a :: before, c, rest, x, y, d, rfl, found, exchanged, one.same.cons same⟩
      | true =>
        obtain ⟨x, y, c, found, exchanged, same⟩ := one
        rcases ih with ⟨rfl, others⟩ | ⟨never, -⟩
        · exact .inr ⟨rfl, rfl, [], a, as, x, y, c, rfl, found, exchanged, same.cons others⟩
        · cases never

theorem ClosesAll.same (h : ClosesAll closed passed passed as bs) : SameTrees as bs := by
  rcases h.exchanged with ⟨-, same⟩ | ⟨rfl, never, -⟩
  · exact same
  · cases never

/-- **A construct is read past the word as its parts are.** -/
theorem Closes.inside (rebuilt : SameTree (a.withChildren b.children) b)
    (parts : ClosesAll closed passed after a.children b.children) : Closes closed passed after a b := by
  rcases parts.exchanged with ⟨rfl, same⟩ | ⟨rfl, rfl, before, c, rest, x, y, d, split, found, exchanged, same⟩
  · refine .of_same (Eq.trans ?_ rebuilt) passed
    rw [← same.withChildren a, withChildren_children]
  · exact ⟨x, y, _, found, .child split exchanged, (same.withChildren a).trans rebuilt⟩

section

variable {init init' : Option Node} {name : String} {span other : Span}

theorem Closes.declare (h : ClosesAll closed passed after init.toList init'.toList) :
    Closes closed passed after (.declare span name init) (.declare other name init') :=
  .inside (by cases init' <;> rfl) h

theorem Closes.leave (h : ClosesAll closed passed after init.toList init'.toList) :
    Closes closed passed after (.leave span init) (.leave other init') :=
  .inside (by cases init' <;> rfl) h

theorem Closes.give (h : ClosesAll closed passed after init.toList init'.toList) :
    Closes closed passed after (.give span init) (.give other init') :=
  .inside (by cases init' <;> rfl) h

end

theorem ClosesAll.append (h : ClosesAll closed passed now as bs) (k : ClosesAll closed now after cs ds) :
    ClosesAll closed passed after (as ++ cs) (bs ++ ds) := by
  induction h with
  | nil => exact k
  | cons one _ ih => exact .cons one (ih k)

/-- The parts of arms, in the order in which they are written. -/
def armParts (branches : List (Node × Node)) : List Node :=
  branches.flatMap fun branch => [branch.1, branch.2]

theorem Closes.choose {branches others : List (Node × Node)} {init init' : Option Node} {span other : Span}
    (arms : ClosesAll closed passed now (armParts branches) (armParts others))
    (h : ClosesAll closed now after init.toList init'.toList) :
    Closes closed passed after (.choose span branches init) (.choose other others init') := by
  refine .inside ?_ (arms.append h)
  have made := armsOf_parts others init'
  unfold Node.children withChildren
  dsimp only
  rw [made]
  cases init' <;> rfl

end

end HostScript
