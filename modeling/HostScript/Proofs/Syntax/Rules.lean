import HostScript.Proofs.Syntax.Printer

/-!
# Proofs/Syntax/Rules — the readers of the parser as rules of a grammar

`Cursor.Spells` says which words come next at a cursor and where it is after them, and `Yields` what a
reader makes of a cursor.  For each reader there is a rule for every form of what it reads; nothing
after this module opens a reader.
-/

namespace HostScript

/-! ## Words before a cursor -/

/-- A cursor that holds a word, and the cursor after that. -/
structure Cursor.Holds (c : Cursor) (w : Word) (after : Cursor) : Prop where
  kind : c.kind = w.kind
  text : c.current.text = w.text
  advance : c.advance = (.ok c.current, after)

theorem Cursor.Holds.fixed {c after : Cursor} {kind : Kind} (h : c.Holds (.fixed kind) after) :
    c.kind = kind := h.kind

theorem Cursor.Holds.named {c after : Cursor} {name : String} (h : c.Holds (.name name) after) :
    c.kind = .identifier := h.kind

theorem Cursor.Holds.called {c after : Cursor} {name : String} (h : c.Holds (.name name) after) :
    c.current.text = name := h.text

theorem Cursor.kind_ne {c : Cursor} {kind other : Kind} (h : c.kind = kind) (apart : kind ≠ other) :
    c.kind ≠ other := h ▸ apart

/-- **The words that come next** at a cursor, and the cursor after them. -/
inductive Cursor.Spells : Cursor → List Word → Cursor → Prop where
  | nil {c : Cursor} : Spells c [] c
  | cons {c after last : Cursor} {w : Word} {words : List Word} :
    c.Holds w after → Spells after words last → Spells c (w :: words) last

namespace Cursor.Spells

variable {c last : Cursor} {w : Word} {words others : List Word}

theorem head (h : c.Spells (w :: words) last) : ∃ after, c.Holds w after ∧ after.Spells words last := by
  cases h with
  | cons held rest => exact ⟨_, held, rest⟩

theorem eq_of_nil (h : c.Spells [] last) : c = last := by
  cases h with
  | nil => rfl

theorem split (h : c.Spells (words ++ others) last) :
    ∃ between, c.Spells words between ∧ between.Spells others last := by
  induction words generalizing c with
  | nil => exact ⟨c, .nil, h⟩
  | cons w words ih =>
    obtain ⟨after, held, rest⟩ := h.head
    obtain ⟨between, first, second⟩ := ih rest
    exact ⟨between, .cons held first, second⟩

end Cursor.Spells

namespace Parser

variable {α β : Type} {n m : Nat} {c c₁ c₂ c₃ c₄ c₅ c₆ : Cursor} {w : Word}

/-- **What a reader makes of a cursor**, and the cursor after it. -/
def Yields (r : Reading α n) (v : α) (after : Cursor) : Prop := ∃ fewer, r = .ok ⟨v, after, fewer⟩

theorem Yields.bind {r : Reading α n} {v : α} {k : Read α n → Reading β m} {u : β}
    (h : Yields r v c₁) (next : ∀ fewer, Yields (k ⟨v, c₁, fewer⟩) u c₂) : Yields (r >>= k) u c₂ := by
  obtain ⟨fewer, rfl⟩ := h
  exact next fewer

theorem Yields.of_bind {r : Reading α n} {k : Read α n → Reading β m} {u : β}
    (h : Yields (r >>= k) u c₂) : ∃ v c₁, Yields r v c₁ := by
  cases r with
  | ok read => exact ⟨read.value, read.next, read.fewer, rfl⟩
  | error e =>
    obtain ⟨_, fails⟩ := h
    cases fails

theorem Yields.pure {v : α} (fewer : c.remaining < n) : Yields (n := n) (.ok ⟨v, c, fewer⟩) v c :=
  ⟨fewer, rfl⟩

/-! ## Tokens -/

theorem yields_shift (h : c.Holds w c₁) (held : c.kind ≠ .endOfInput) :
    Yields (shift c held) c.current c₁ := by
  unfold shift
  split
  next token after step =>
    obtain ⟨same, rfl⟩ := Prod.mk.inj (step.symm.trans h.advance)
    obtain rfl := Except.ok.inj same
    exact .pure _
  next e after step =>
    rw [h.advance] at step
    cases step

theorem yields_require {kind : Kind} {word : kind ≠ .endOfInput} (h : c.Holds w c₁)
    (same : w.kind = kind) : Yields (require c kind word) c.current c₁ := by
  unfold require
  rw [dif_pos (h.kind.trans same)]
  exact yields_shift h _

theorem yields_skip {kind : Kind} {word : kind ≠ .endOfInput} (h : c.Holds w c₁)
    (same : w.kind = kind) : Yields (skip c kind word) true c₁ := by
  unfold skip
  rw [dif_pos (h.kind.trans same)]
  exact .bind (yields_shift h _) fun fewer => .pure _

theorem yields_noSkip {kind : Kind} {word : kind ≠ .endOfInput} (other : c.kind ≠ kind) :
    Yields (skip c kind word) false c := by
  unfold skip
  rw [dif_neg other]
  exact .pure _

/-! ## Names -/

theorem yields_noNames (h : c.Holds (.fixed .rightParen) c₁) : Yields (names c) [] c₁ := by
  rw [names, dif_pos h.fixed]
  exact .bind (yields_shift h _) fun fewer => .pure _

theorem yields_names {name : String} {comma : Bool} {more : List String}
    (first : c.Holds (.name name) c₁) (between : ∀ word, Yields (skip c₁ .comma word) comma c₂)
    (rest : Yields (names c₂) more c₃) : Yields (names c) (name :: more) c₃ := by
  rw [names, dif_neg (Cursor.kind_ne first.named (by decide))]
  refine .bind (yields_require first rfl) fun _ => ?_
  refine .bind (between _) fun _ => ?_
  refine .bind rest fun _ => ?_
  rw [first.called]
  exact .pure _

theorem yields_parameters {params : List String} (opening : c.Holds (.fixed .leftParen) c₁)
    (rest : Yields (names c₁) params c₂) : Yields (parameters c) params c₂ := by
  rw [parameters]
  refine .bind (yields_require opening rfl) fun _ => ?_
  refine .bind rest fun _ => ?_
  exact .pure _

theorem yields_noPath (other : c.kind ≠ .dot) : Yields (path c) [] c := by
  rw [path, dif_neg other]
  exact .pure _

theorem yields_path {name : String} {more : List String} (point : c.Holds (.fixed .dot) c₁)
    (first : c₁.Holds (.name name) c₂) (rest : Yields (path c₂) more c₃) :
    Yields (path c) (name :: more) c₃ := by
  rw [path, dif_pos point.fixed]
  refine .bind (yields_shift point _) fun _ => ?_
  refine .bind (yields_require first rfl) fun _ => ?_
  refine .bind rest fun _ => ?_
  rw [first.called]
  exact .pure _

theorem yields_noDotted {target : Node} (other : c.kind ≠ .dot) : Yields (dotted target c) target c := by
  rw [dotted, dif_neg other]
  exact .pure _

theorem yields_dotted {target node : Node} {name : String} (point : c.Holds (.fixed .dot) c₁)
    (first : c₁.Holds (.name name) c₂)
    (rest : Yields (dotted (.member (c₂.spanFrom target.span) target name .get) c₂) node c₃) :
    Yields (dotted target c) node c₃ := by
  rw [dotted, dif_pos point.fixed]
  refine .bind (yields_shift point _) fun _ => ?_
  refine .bind (yields_require first rfl) fun _ => ?_
  rw [← first.called] at rest
  refine .bind rest fun _ => ?_
  exact .pure _

/-! ## Expressions -/

theorem yields_target {node : Node} (target : Yields (binary .disjunction c) node c₁)
    (other : c₁.kind ≠ .equal) : Yields (expression c) node c₁ := by
  rw [expression]
  refine .bind target fun _ => ?_
  dsimp only
  rw [dif_neg other]
  exact .pure _

theorem yields_assign {target value : Node} (first : Yields (binary .disjunction c) target c₁)
    (equal : c₁.Holds (.fixed .equal) c₂) (second : Yields (expression c₂) value c₃) :
    Yields (expression c) (.assign (target.span.merge value.span) target value) c₃ := by
  rw [expression]
  refine .bind first fun _ => ?_
  dsimp only
  rw [dif_pos equal.fixed]
  refine .bind (yields_shift equal _) fun _ => ?_
  refine .bind second fun _ => ?_
  exact .pure _

theorem yields_binary {level : Level} {left node : Node} (first : Yields (operand level c) left c₁)
    (rest : Yields (chain level left c₁) node c₂) : Yields (binary level c) node c₂ := by
  rw [binary]
  refine .bind first fun _ => ?_
  refine .bind rest fun _ => ?_
  exact .pure _

theorem yields_tighter {level tighter : Level} {node : Node} (tight : level.tighter? = some tighter)
    (h : Yields (binary tighter c) node c₁) : Yields (operand level c) node c₁ := by
  rw [operand]
  split
  next other found =>
    obtain rfl := Option.some.inj (found.symm.trans tight)
    exact h
  next found => exact absurd (tight.symm.trans found) (Option.some_ne_none _)

theorem yields_tightest {level : Level} {node : Node} (tight : level.tighter? = none)
    (h : Yields (unary c) node c₁) : Yields (operand level c) node c₁ := by
  rw [operand]
  split
  next found => exact absurd (found.symm.trans tight) (Option.some_ne_none _)
  next => exact h

theorem yields_chainEnd {level : Level} {left : Node} (other : level.operator? c.kind = none) :
    Yields (chain level left c) left c := by
  rw [chain]
  split
  next found => exact absurd (found.symm.trans other) (Option.some_ne_none _)
  next => exact .pure _

theorem yields_chain {level : Level} {op : BinaryOp} {left right node : Node}
    (operator : c.Holds (.fixed op.kind) c₁) (same : level.operator? op.kind = some op)
    (second : Yields (operand level c₁) right c₂)
    (rest : Yields (chain level (.binary (left.span.merge right.span) op left right) c₂) node c₃) :
    Yields (chain level left c) node c₃ := by
  rw [chain]
  split
  next other found =>
    rw [operator.fixed, same] at found
    obtain rfl := Option.some.inj found
    refine .bind (yields_shift operator _) fun _ => ?_
    refine .bind second fun _ => ?_
    refine .bind rest fun _ => ?_
    exact .pure _
  next found =>
    rw [operator.fixed, same] at found
    cases found

theorem yields_postfixed {node : Node} (other : prefixOperator? c.kind = none)
    (h : Yields (postfixed c) node c₁) : Yields (unary c) node c₁ := by
  rw [unary]
  split
  next found => exact absurd (found.symm.trans other) (Option.some_ne_none _)
  next => exact h

theorem yields_unary {op : UnaryOp} {node : Node} (operator : c.Holds (.fixed op.kind) c₁)
    (rest : Yields (unary c₁) node c₂) :
    Yields (unary c) (.unary (c₂.spanFrom c.current.span) op node) c₂ := by
  have same : prefixOperator? c.kind = some op := by
    rw [operator.fixed]
    cases op <;> rfl
  rw [unary]
  split
  next found =>
    obtain rfl := Option.some.inj (same.symm.trans found)
    refine .bind (yields_shift operator _) fun _ => ?_
    refine .bind rest fun _ => ?_
    exact .pure _
  next found => exact absurd (same.symm.trans found) (Option.some_ne_none _)

theorem yields_suffixed {first node : Node} (head : Yields (primary c) first c₁)
    (rest : Yields (suffixes first c₁) node c₂) : Yields (postfixed c) node c₂ := by
  rw [postfixed]
  refine .bind head fun _ => ?_
  refine .bind rest fun _ => ?_
  exact .pure _

theorem yields_noSuffix {node : Node} (dot : c.kind ≠ .dot) (paren : c.kind ≠ .leftParen)
    (bracket : c.kind ≠ .leftBracket) : Yields (suffixes node c) node c := by
  rw [suffixes, dif_neg dot, dif_neg paren, dif_neg bracket]
  exact .pure _

theorem yields_member {first node : Node} {name : String} {kind : MemberKind}
    (point : c.Holds (.fixed .dot) c₁) (named : c₁.Holds (.name name) c₂)
    (method : kind = .methodCall ↔ c₂.kind = .leftParen)
    (rest : Yields (suffixes (.member (c₂.spanFrom first.span) first name kind) c₂) node c₃) :
    Yields (suffixes first c) node c₃ := by
  have written : (if c₂.kind = .leftParen then MemberKind.methodCall else .get) = kind := by
    split
    next before => exact (method.2 before).symm
    next other =>
      cases kind with
      | get => rfl
      | methodCall => exact absurd (method.1 rfl) other
  rw [suffixes, dif_pos point.fixed]
  refine .bind (yields_shift point _) fun _ => ?_
  refine .bind (yields_require named rfl) fun _ => ?_
  dsimp only
  rw [written, named.called]
  refine .bind rest fun _ => ?_
  exact .pure _

theorem yields_call {first node : Node} {args : List Node} (opening : c.kind = .leftParen)
    (given : Yields (arguments c) args c₁)
    (rest : Yields (suffixes (.call (c₁.spanFrom first.span) first args) c₁) node c₂) :
    Yields (suffixes first c) node c₂ := by
  rw [suffixes, dif_neg (Cursor.kind_ne opening (by decide)), dif_pos opening]
  refine .bind given fun _ => ?_
  refine .bind rest fun _ => ?_
  exact .pure _

theorem yields_index {first place node : Node} (opening : c.Holds (.fixed .leftBracket) c₁)
    (inner : Yields (expression c₁) place c₂) (closing : c₂.Holds (.fixed .rightBracket) c₃)
    (rest : Yields (suffixes (.index (c₃.spanFrom first.span) first place) c₃) node c₄) :
    Yields (suffixes first c) node c₄ := by
  rw [suffixes, dif_neg (Cursor.kind_ne opening.fixed (by decide)),
    dif_neg (Cursor.kind_ne opening.fixed (by decide)), dif_pos opening.fixed]
  refine .bind (yields_shift opening _) fun _ => ?_
  refine .bind inner fun _ => ?_
  refine .bind (yields_require closing rfl) fun _ => ?_
  refine .bind rest fun _ => ?_
  exact .pure _

theorem yields_arguments {args : List Node} (opening : c.Holds (.fixed .leftParen) c₁)
    (rest : Yields (argumentList c₁) args c₂) : Yields (arguments c) args c₂ := by
  rw [arguments]
  refine .bind (yields_require opening rfl) fun _ => ?_
  refine .bind rest fun _ => ?_
  exact .pure _

theorem yields_noArguments (closing : c.Holds (.fixed .rightParen) c₁) :
    Yields (argumentList c) [] c₁ := by
  rw [argumentList, dif_pos closing.fixed]
  refine .bind (yields_shift closing _) fun _ => ?_
  exact .pure _

theorem yields_argument {arg : Node} {comma : Bool} {more : List Node}
    (other : c.kind ≠ .rightParen) (inside : c.kind ≠ .endOfInput)
    (first : Yields (expression c) arg c₁) (between : ∀ word, Yields (skip c₁ .comma word) comma c₂)
    (rest : Yields (argumentList c₂) more c₃) : Yields (argumentList c) (arg :: more) c₃ := by
  have reading : c.atEnd = false := decide_eq_false inside
  rw [argumentList, dif_neg other, if_neg (by rw [reading]; exact Bool.false_ne_true)]
  refine .bind first fun _ => ?_
  refine .bind (between _) fun _ => ?_
  refine .bind rest fun _ => ?_
  exact .pure _

/-! ## Primary expressions -/

theorem yields_enclosed {inner : Node} (opening : c.Holds (.fixed .leftParen) c₁)
    (inside : Yields (expression c₁) inner c₂) (closing : c₂.Holds (.fixed .rightParen) c₃) :
    Yields (primary c) inner c₃ := by
  rw [primary, dif_pos opening.fixed]
  refine .bind (yields_shift opening _) fun _ => ?_
  refine .bind inside fun _ => ?_
  refine .bind (yields_require closing rfl) fun _ => ?_
  exact .pure _

theorem yields_literal {value : Literal} (held : c.Holds w c₁) (starts : startsLiteral w.kind = true)
    (read : literal c.current = .ok value) :
    Yields (primary c) (.literal c.current.span value) c₁ := by
  have here : startsLiteral c.kind = true := held.kind ▸ starts
  have other : c.kind ≠ .leftParen := by
    intro same
    rw [same] at here
    cases here
  rw [primary, dif_neg other, dif_pos here]
  refine .bind (yields_shift held _) fun _ => ?_
  dsimp only
  rw [read]
  exact .pure _

theorem yields_named {name : String} (held : c.Holds (.name name) c₁) :
    Yields (primary c) (.named c.current.span name) c₁ := by
  have other : startsLiteral c.kind ≠ true := by
    rw [held.named]
    decide
  rw [primary, dif_neg (Cursor.kind_ne held.named (by decide)), dif_neg other, dif_pos held.named]
  refine .bind (yields_shift held _) fun _ => ?_
  dsimp only
  rw [held.called]
  exact .pure _

theorem yields_create {name : String} {target : Node} {args : List Node}
    (word : c.Holds (.fixed .newWord) c₁) (first : c₁.Holds (.name name) c₂)
    (path : Yields (dotted (.named c₁.current.span name) c₂) target c₃)
    (given : Yields (arguments c₃) args c₄) :
    Yields (primary c) (.create (c₄.spanFrom c.current.span) target args) c₄ := by
  have other : startsLiteral c.kind ≠ true := by
    rw [word.fixed]
    decide
  rw [primary, dif_neg (Cursor.kind_ne word.fixed (by decide)), dif_neg other,
    dif_neg (Cursor.kind_ne word.fixed (by decide)), dif_pos word.fixed]
  rw [← first.called] at path
  refine .bind (yields_shift word _) fun _ => ?_
  refine .bind (yields_require first rfl) fun _ => ?_
  refine .bind path fun _ => ?_
  refine .bind given fun _ => ?_
  exact .pure _

theorem yields_lambda {params : List String} {body : Node} (word : c.Holds (.fixed .lambdaWord) c₁)
    (named : Yields (parameters c₁) params c₂) (inside : Yields (statement c₂) body c₃) :
    Yields (primary c) (.lambda (c₃.spanFrom c.current.span) params body) c₃ := by
  have other : startsLiteral c.kind ≠ true := by
    rw [word.fixed]
    decide
  rw [primary, dif_neg (Cursor.kind_ne word.fixed (by decide)), dif_neg other,
    dif_neg (Cursor.kind_ne word.fixed (by decide)),
    dif_neg (Cursor.kind_ne word.fixed (by decide)), dif_pos word.fixed]
  refine .bind (yields_shift word _) fun _ => ?_
  refine .bind named fun _ => ?_
  refine .bind inside fun _ => ?_
  exact .pure _

/-! ## What expressions start with -/

/-- The tokens that start a primary expression. -/
def startsPrimary : Kind → Bool
  | .leftParen | .identifier | .newWord | .lambdaWord => true
  | kind => startsLiteral kind

/-- The tokens that start an expression. -/
def startsExpression (kind : Kind) : Bool := startsPrimary kind || (prefixOperator? kind).isSome

theorem prefixOperator?_of_startsPrimary {kind : Kind} (h : startsPrimary kind = true) :
    prefixOperator? kind = none := by
  unfold prefixOperator?
  split
  · cases h
  · cases h
  · rfl

theorem startsPrimary_of_yields {node : Node} (h : Yields (primary c) node c₁) :
    startsPrimary c.kind = true := by
  refine Decidable.byContradiction fun starts => ?_
  have other {kind : Kind} (does : startsPrimary kind = true) : c.kind ≠ kind := by
    intro same
    rw [same] at starts
    exact starts does
  have constant : ¬startsLiteral c.kind = true := by
    intro does
    refine starts ?_
    unfold startsPrimary
    split <;> first | rfl | exact does
  rw [primary, dif_neg (other rfl), dif_neg constant, dif_neg (other rfl), dif_neg (other rfl),
    dif_neg (other rfl)] at h
  obtain ⟨_, fails⟩ := h
  cases fails

theorem startsExpression_of_unary {node : Node} (h : Yields (unary c) node c₁) :
    startsExpression c.kind = true := by
  rw [unary] at h
  split at h
  next op found => rw [startsExpression, found, Option.isSome_some, Bool.or_true]
  next =>
    rw [postfixed] at h
    obtain ⟨_, _, first⟩ := h.of_bind
    rw [startsExpression, startsPrimary_of_yields first, Bool.true_or]

theorem startsExpression_of_binary {level : Level} {node : Node} {after : Cursor}
    (h : Yields (binary level c) node after) : startsExpression c.kind = true := by
  rw [binary] at h
  obtain ⟨_, _, first⟩ := h.of_bind
  rw [operand] at first
  split at first
  next tighter tight =>
    have closer := Level.depth_of_tighter? tight
    exact startsExpression_of_binary first
  next => exact startsExpression_of_unary first
termination_by level.depth
decreasing_by exact closer

theorem startsExpression_of_yields {node : Node} (h : Yields (expression c) node c₁) :
    startsExpression c.kind = true := by
  rw [expression] at h
  obtain ⟨_, _, first⟩ := h.of_bind
  exact startsExpression_of_binary first

theorem ne_of_startsExpression {kind other : Kind} (h : startsExpression kind = true)
    (never : startsExpression other = false) : kind ≠ other := by
  rintro rfl
  rw [h] at never
  cases never

/-! ## Statements -/

theorem yields_empty (held : c.Holds (.fixed .semicolon) c₁) :
    Yields (statement c) (.empty c.current.span) c₁ := by
  rw [statement, dif_pos held.fixed]
  refine .bind (yields_shift held _) fun _ => ?_
  exact .pure _

theorem yields_block {statements : List Node} (opening : c.Holds (.fixed .leftBrace) c₁)
    (inside : Yields (braceBody c₁) statements c₂) :
    Yields (statement c) (.block (c₂.spanFrom c.current.span) statements) c₂ := by
  rw [statement, dif_neg (Cursor.kind_ne opening.fixed (by decide)), dif_pos opening.fixed]
  refine .bind (yields_shift opening _) fun _ => ?_
  refine .bind inside fun _ => ?_
  exact .pure _

theorem yields_loop {body : Node} (word : c.Holds (.fixed .loopWord) c₁)
    (inside : Yields (statement c₁) body c₂) :
    Yields (statement c) (.loop (c₂.spanFrom c.current.span) body) c₂ := by
  rw [statement]
  simp only [word.fixed, reduceCtorEq, ↓reduceDIte, ↓reduceIte]
  refine .bind (yields_shift word _) fun _ => ?_
  refine .bind inside fun _ => ?_
  exact .pure _

theorem yields_choose {branches : List (Node × Node)} {ending : BranchEnd} {otherwise : Option Node}
    (word : c.Holds (.fixed .ifWord) c₁)
    (arms : Yields (branchList c₁) (branches, ending) c₂)
    (last : Yields (elsePart ending c₂) otherwise c₃) :
    Yields (statement c) (.choose (c₃.spanFrom c.current.span) branches otherwise) c₃ := by
  rw [statement]
  simp only [word.fixed, reduceCtorEq, ↓reduceDIte, ↓reduceIte]
  refine .bind (yields_shift word _) fun _ => ?_
  refine .bind arms fun _ => ?_
  refine .bind last fun _ => ?_
  exact .pure _

theorem yields_function {name : String} {params : List String} {body : Node}
    (word : c.Holds (.fixed .functionWord) c₁) (first : c₁.Holds (.name name) c₂)
    (named : Yields (parameters c₂) params c₃) (inside : Yields (statement c₃) body c₄) :
    Yields (statement c) (.function (c₄.spanFrom c.current.span) name params body) c₄ := by
  rw [statement]
  simp only [word.fixed, reduceCtorEq, ↓reduceDIte, ↓reduceIte]
  refine .bind (yields_shift word _) fun _ => ?_
  refine .bind (yields_require first rfl) fun _ => ?_
  refine .bind named fun _ => ?_
  refine .bind inside fun _ => ?_
  rw [first.called]
  exact .pure _

theorem yields_give (word : c.Holds (.fixed .returnWord) c₁) (last : c₁.Holds (.fixed .semicolon) c₂) :
    Yields (statement c) (.give (c₂.spanFrom c.current.span) none) c₂ := by
  rw [statement]
  simp only [word.fixed, reduceCtorEq, ↓reduceDIte, ↓reduceIte]
  refine .bind (yields_shift word _) fun _ => ?_
  refine .bind (yields_skip last rfl) fun _ => ?_
  exact .pure _

theorem yields_giveBack {value : Node} (word : c.Holds (.fixed .returnWord) c₁)
    (other : c₁.kind ≠ .semicolon) (inside : closesBlock c₁.kind = false)
    (given : Yields (expression c₁) value c₂) (last : c₂.Holds (.fixed .semicolon) c₃) :
    Yields (statement c) (.give (c₃.spanFrom c.current.span) (some value)) c₃ := by
  rw [statement]
  simp only [word.fixed, reduceCtorEq, ↓reduceDIte, ↓reduceIte]
  refine .bind (yields_shift word _) fun _ => ?_
  refine .bind (yields_noSkip other) fun _ => ?_
  dsimp only
  rw [Bool.false_or, if_neg (by rw [inside]; exact Bool.false_ne_true)]
  refine .bind given fun _ => ?_
  refine .bind (yields_skip last rfl) fun _ => ?_
  exact .pure _

theorem yields_noInitializer (other : c.kind ≠ .equal) : Yields (initializer c) none c := by
  rw [initializer, dif_neg other]
  exact .pure _

theorem yields_initializer {value : Node} (equal : c.Holds (.fixed .equal) c₁)
    (given : Yields (expression c₁) value c₂) : Yields (initializer c) (some value) c₂ := by
  rw [initializer, dif_pos equal.fixed]
  refine .bind (yields_shift equal _) fun _ => ?_
  refine .bind given fun _ => ?_
  exact .pure _

theorem yields_declare {name : String} {init : Option Node} (word : c.Holds (.fixed .varWord) c₁)
    (first : c₁.Holds (.name name) c₂) (given : Yields (initializer c₂) init c₃)
    (last : c₃.Holds (.fixed .semicolon) c₄) :
    Yields (statement c) (.declare (c₄.spanFrom c.current.span) name init) c₄ := by
  rw [statement]
  simp only [word.fixed, reduceCtorEq, ↓reduceDIte, ↓reduceIte]
  refine .bind (yields_shift word _) fun _ => ?_
  refine .bind (yields_require first rfl) fun _ => ?_
  refine .bind given fun _ => ?_
  refine .bind (yields_skip last rfl) fun _ => ?_
  rw [first.called]
  exact .pure _

theorem yields_import {name : String} {more : List String} (word : c.Holds (.fixed .importWord) c₁)
    (first : c₁.Holds (.name name) c₂) (rest : Yields (path c₂) more c₃)
    (last : c₃.Holds (.fixed .semicolon) c₄) :
    Yields (statement c) (.importFrom (c₄.spanFrom c.current.span) (name :: more) none) c₄ := by
  rw [statement]
  simp only [word.fixed, reduceCtorEq, ↓reduceDIte, ↓reduceIte]
  refine .bind (yields_shift word _) fun _ => ?_
  refine .bind (yields_require first rfl) fun _ => ?_
  refine .bind rest fun _ => ?_
  refine .bind (yields_noSkip (Cursor.kind_ne last.fixed (by decide))) fun _ => ?_
  dsimp only
  rw [if_neg Bool.false_ne_true]
  refine .bind (yields_skip last rfl) fun _ => ?_
  rw [first.called]
  exact .pure _

theorem yields_importAs {name renamed : String} {more : List String}
    (word : c.Holds (.fixed .importWord) c₁) (first : c₁.Holds (.name name) c₂)
    (rest : Yields (path c₂) more c₃) (as : c₃.Holds (.fixed .asWord) c₄)
    (second : c₄.Holds (.name renamed) c₅) (last : c₅.Holds (.fixed .semicolon) c₆) :
    Yields (statement c) (.importFrom (c₆.spanFrom c.current.span) (name :: more) (some renamed))
      c₆ := by
  rw [statement]
  simp only [word.fixed, reduceCtorEq, ↓reduceDIte, ↓reduceIte]
  refine .bind (yields_shift word _) fun _ => ?_
  refine .bind (yields_require first rfl) fun _ => ?_
  refine .bind rest fun _ => ?_
  refine .bind (yields_skip as rfl) fun _ => ?_
  dsimp only
  rw [if_pos rfl]
  refine .bind (yields_require second rfl) fun _ => ?_
  refine .bind (yields_skip last rfl) fun _ => ?_
  rw [first.called, second.called]
  exact .pure _

theorem yields_leave (word : c.Holds (.fixed .breakWord) c₁) (last : c₁.Holds (.fixed .semicolon) c₂) :
    Yields (statement c) (.leave (c₂.spanFrom c.current.span) none) c₂ := by
  rw [statement]
  simp only [word.fixed, reduceCtorEq, ↓reduceDIte, ↓reduceIte]
  refine .bind (yields_shift word _) fun _ => ?_
  dsimp only
  rw [dif_neg (Cursor.kind_ne last.fixed (by decide))]
  refine .bind (yields_skip last rfl) fun _ => ?_
  exact .pure _

theorem yields_leaveWith {value : Node} (word : c.Holds (.fixed .breakWord) c₁)
    (opening : c₁.Holds (.fixed .leftParen) c₂) (given : Yields (expression c₂) value c₃)
    (closing : c₃.Holds (.fixed .rightParen) c₄) (last : c₄.Holds (.fixed .semicolon) c₅) :
    Yields (statement c) (.leave (c₅.spanFrom c.current.span) (some value)) c₅ := by
  rw [statement]
  simp only [word.fixed, reduceCtorEq, ↓reduceDIte, ↓reduceIte]
  refine .bind (yields_shift word _) fun _ => ?_
  dsimp only
  rw [dif_pos opening.fixed]
  refine .bind (yields_shift opening _) fun _ => ?_
  refine .bind given fun _ => ?_
  refine .bind (yields_require closing rfl) fun _ => ?_
  refine .bind (yields_skip last rfl) fun _ => ?_
  exact .pure _

theorem yields_plain {value : Node} (given : Yields (expression c) value c₁)
    (last : c₁.Holds (.fixed .semicolon) c₂) :
    Yields (statement c) (.plain (c₂.spanFrom c.current.span) value) c₂ := by
  have other {kind : Kind} (never : startsExpression kind = false) : c.kind ≠ kind :=
    ne_of_startsExpression (startsExpression_of_yields given) never
  rw [statement, dif_neg (other rfl), dif_neg (other rfl), if_neg (other rfl), dif_neg (other rfl),
    dif_neg (other rfl), dif_neg (other rfl), dif_neg (other rfl), dif_neg (other rfl),
    dif_neg (other rfl), dif_neg (other rfl)]
  refine .bind given fun _ => ?_
  refine .bind (yields_skip last rfl) fun _ => ?_
  exact .pure _

/-! ## Lists of statements -/

theorem yields_braceEnd (closing : c.Holds (.fixed .rightBrace) c₁) : Yields (braceBody c) [] c₁ := by
  rw [braceBody, dif_pos closing.fixed]
  refine .bind (yields_shift closing _) fun _ => ?_
  exact .pure _

theorem yields_braceBody {first : Node} {more : List Node} (inside : closesBlock c.kind = false)
    (one : Yields (statement c) first c₁) (rest : Yields (braceBody c₁) more c₂) :
    Yields (braceBody c) (first :: more) c₂ := by
  have other : c.kind ≠ .rightBrace := by
    intro same
    rw [same] at inside
    cases inside
  have reading : c.atEnd ≠ true := by
    intro ends
    rw [of_decide_eq_true ends] at inside
    cases inside
  rw [braceBody, dif_neg other, if_neg reading]
  refine .bind one fun _ => ?_
  refine .bind rest fun _ => ?_
  exact .pure _

theorem yields_noStatements (ends : c.kind = .endOfInput) : Yields (statements c) [] c := by
  have reading : c.atEnd = true := decide_eq_true ends
  rw [statements, if_pos reading]
  exact .pure _

theorem yields_statements {first : Node} {more : List Node} (inside : closesBlock c.kind = false)
    (one : Yields (statement c) first c₁) (rest : Yields (statements c₁) more c₂) :
    Yields (statements c) (first :: more) c₂ := by
  have reading : c.atEnd ≠ true := by
    intro ends
    rw [of_decide_eq_true ends] at inside
    cases inside
  rw [statements, if_neg reading]
  refine .bind one fun _ => ?_
  refine .bind rest fun _ => ?_
  exact .pure _

/-! ## Branches -/

theorem yields_branchBody {body : Node} (brace : c.kind = .leftBrace)
    (one : Yields (statement c) body c₁) : Yields (branchBody c) (body, .closed) c₁ := by
  rw [branchBody, if_neg (Cursor.kind_ne brace (by decide))]
  refine .bind one fun _ => ?_
  exact .pure _

theorem yields_lastBranch {test body : Node} (first : Yields (expression c) test c₁)
    (second : Yields (branchBody c₁) (body, .closed) c₂) (other : c₂.kind ≠ .elseIfWord) :
    Yields (branchList c) ([(test, body)], .closed) c₂ := by
  rw [branchList]
  refine .bind first fun _ => ?_
  refine .bind second fun _ => ?_
  dsimp only
  rw [dif_neg other]
  exact .pure _

theorem yields_branch {test body : Node} {more : List (Node × Node)}
    (first : Yields (expression c) test c₁) (second : Yields (branchBody c₁) (body, .closed) c₂)
    (another : c₂.Holds (.fixed .elseIfWord) c₃) (rest : Yields (branchList c₃) (more, .closed) c₄) :
    Yields (branchList c) ((test, body) :: more, .closed) c₄ := by
  rw [branchList]
  refine .bind first fun _ => ?_
  refine .bind second fun _ => ?_
  dsimp only
  rw [dif_pos another.fixed]
  refine .bind (yields_shift another _) fun _ => ?_
  refine .bind rest fun _ => ?_
  exact .pure _

theorem yields_noElse (other : c.kind ≠ .elseWord) : Yields (elsePart .closed c) none c := by
  rw [elsePart, dif_neg other]
  exact .pure _

theorem yields_else {body : Node} (word : c.Holds (.fixed .elseWord) c₁)
    (one : Yields (statement c₁) body c₂) : Yields (elsePart .closed c) (some body) c₂ := by
  rw [elsePart, dif_pos word.fixed]
  refine .bind (yields_shift word _) fun _ => ?_
  refine .bind one fun _ => ?_
  exact .pure _

end Parser

end HostScript
