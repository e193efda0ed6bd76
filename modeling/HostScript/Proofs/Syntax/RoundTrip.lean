import HostScript.Proofs.Syntax.Levels
import HostScript.Proofs.Syntax.Lexing

/-!
# Proofs/Syntax/RoundTrip — reading undoes printing

For each place where a tree can stand, `Role.IsReadBack` says what the parser makes of the words of a
canonical tree there.  There is a lemma for each constructor of `Canonical`, and the induction over
canonical trees puts them together: `Canonical.isReadBack`.  `parse_print` is what this comes to for
whole sources.
-/

namespace HostScript

namespace Parser

variable {span : Span} {name : String} {params : List String} {value target body : Node}
variable {nodes : List Node} {branches : List (Node × Node)} {c after : Cursor}

/-! ## Names -/

theorem yields_nameWords (h : c.Spells (nameWords params ++ [.fixed .rightParen]) after) :
    Yields (names c) params after := by
  induction params generalizing c with
  | nil =>
    obtain ⟨_, closing, h⟩ := h.head
    obtain rfl := h.eq_of_nil
    exact yields_noNames closing
  | cons name rest ih =>
    obtain ⟨c₁, first, h⟩ := h.head
    cases rest with
    | nil =>
      obtain ⟨_, closing, _⟩ := h.head
      exact yields_names first (fun _ => yields_noSkip (Cursor.kind_ne closing.fixed nofun)) (ih h)
    | cons =>
      obtain ⟨c₂, comma, h⟩ := h.head
      exact yields_names first (fun _ => yields_skip comma rfl) (ih h)

theorem yields_paramWords (h : c.Spells (paramWords params) after) :
    Yields (parameters c) params after := by
  obtain ⟨c₁, opening, h⟩ := h.head
  exact yields_parameters opening (yields_nameWords h)

theorem yields_pointWords (h : c.Spells (pointWords params) after) (stops : after.kind ≠ .dot) :
    Yields (path c) params after := by
  induction params generalizing c with
  | nil =>
    obtain rfl := h.eq_of_nil
    exact yields_noPath stops
  | cons name rest ih =>
    obtain ⟨c₁, point, h⟩ := h.head
    obtain ⟨c₂, first, h⟩ := h.head
    exact yields_path point first (ih h)

/-! ## What is read back -/

/-- What is called is read back before its arguments. -/
def IsCalled (e : Node) : Prop :=
  ∀ {c after : Cursor}, c.Spells (Node.calleeWords e e.words) after → after.kind = .leftParen →
    Opens primary suffixes e c after

/-- A dotted name is read back: its first name, and the names after points. -/
def IsPath (e : Node) : Prop :=
  ∀ {c after : Cursor}, c.Spells e.words after → ∃ name next node, c.Holds (.name name) next ∧
    node.bare = e.bare ∧ ∀ {whole last}, Yields (dotted node after) whole last →
      Yields (dotted (.named c.current.span name) next) whole last

/-- A block is read back, whatever follows. -/
def IsBody (e : Node) : Prop :=
  ∀ {c after : Cursor}, c.Spells e.words after → c.kind = .leftBrace ∧
    ∃ node, node.bare = e.bare ∧ Yields (statement c) node after

/-- A token that goes on with a conditional. -/
def continuesBranches : Kind → Bool
  | .elseIfWord | .elseWord => true
  | _ => false

/-- A statement is read back, unless a branch follows. -/
def IsStatement (e : Node) : Prop :=
  ∀ {c after : Cursor}, c.Spells e.words after → continuesBranches after.kind = false →
    closesBlock c.kind = false ∧ ∃ node, node.bare = e.bare ∧ Yields (statement c) node after

/-- **What the parser makes of a tree** where it stands. -/
def IsReadBack : Role → Node → Prop
  | .expression, e => IsRead e
  | .callee, e => IsCalled e
  | .path, e => IsPath e
  | .body, e => IsBody e
  | .statement, e => IsStatement e

/-! ## Arguments -/

theorem kind_ne_of_yields {kind : Kind} {node : Node} {last : Cursor}
    (h : Yields (expression c) node last) (never : startsExpression kind = false) : c.kind ≠ kind :=
  ne_of_startsExpression (startsExpression_of_yields h) never

theorem continues_fixed {kind : Kind} {next : Cursor} (h : c.Holds (.fixed kind) next)
    (stops : continues kind = 0) : continues c.kind = 0 := by
  rw [h.fixed]
  exact stops

/-- Arguments that are read back, up to the closing parenthesis. -/
theorem yields_argumentWords (all : ∀ arg ∈ nodes, IsRead arg)
    (h : c.Spells (Node.argumentWords nodes ++ [.fixed .rightParen]) after) :
    ∃ args, Node.bareAll args = Node.bareAll nodes ∧ Yields (argumentList c) args after := by
  induction nodes generalizing c with
  | nil =>
    obtain ⟨_, closing, h⟩ := h.head
    obtain rfl := h.eq_of_nil
    exact ⟨[], rfl, yields_noArguments closing⟩
  | cons arg rest ih =>
    obtain ⟨own, others⟩ := List.forall_mem_cons.1 all
    rw [Node.argumentWords, List.append_assoc, List.append_assoc] at h
    obtain ⟨c₁, first, h⟩ := h.split
    cases rest with
    | nil =>
      obtain ⟨_, closing, _⟩ := h.head
      obtain ⟨node, same, yields⟩ := own.expression first (continues_fixed closing rfl)
      obtain ⟨args, equal, more⟩ := ih others h
      have between : ∀ word, Yields (skip c₁ .comma word) false c₁ := fun _ =>
        yields_noSkip (Cursor.kind_ne closing.fixed (by decide))
      refine ⟨node :: args, congrArg₂ List.cons same equal, ?_⟩
      exact yields_argument (kind_ne_of_yields yields rfl) (kind_ne_of_yields yields rfl) yields between
        more
    | cons =>
      obtain ⟨c₂, comma, h⟩ := h.head
      obtain ⟨node, same, yields⟩ := own.expression first (continues_fixed comma rfl)
      obtain ⟨args, equal, more⟩ := ih others h
      refine ⟨node :: args, congrArg₂ List.cons same equal, ?_⟩
      exact yields_argument (kind_ne_of_yields yields rfl) (kind_ne_of_yields yields rfl) yields
        (fun _ => yields_skip comma rfl) more

theorem yields_enclosedArguments (all : ∀ arg ∈ nodes, IsRead arg)
    (h : c.Spells (Node.enclosed (Node.argumentWords nodes)) after) :
    ∃ args, Node.bareAll args = Node.bareAll nodes ∧ Yields (arguments c) args after := by
  obtain ⟨c₁, opening, h⟩ := h.head
  obtain ⟨args, same, yields⟩ := yields_argumentWords all h
  exact ⟨args, same, yields_arguments opening yields⟩

/-! ## Expressions -/

theorem literal_of_holds {value : Literal} (written : value.IsWritten)
    (h : c.Holds value.word after) : literal c.current = .ok value := by
  have kind : c.current.kind = value.word.kind := h.kind
  have text := h.text
  rw [literal, kind]
  cases value with
  | bool value => cases value <;> rfl
  | int value =>
    dsimp only [Literal.word] at text ⊢
    rw [text, Numeral.readWord?_wordText]
  | float value => cases written
  | text value => exact congrArg (fun text => Except.ok (Literal.text text)) text

theorem isRead_literal {value : Literal} (written : value.IsWritten) :
    IsRead (.literal span value) := by
  intro c after h
  obtain ⟨_, held, h⟩ := h.head
  obtain rfl := h.eq_of_nil
  have starts : startsLiteral value.word.kind = true := by
    cases value with
    | bool value => cases value <;> rfl
    | _ => rfl
  refine .of_suffixed rfl fun _ => ?_
  exact .single (yields_literal held starts (literal_of_holds written held)) rfl

theorem isRead_named : IsRead (.named span name) := by
  intro c after h
  obtain ⟨_, held, h⟩ := h.head
  obtain rfl := h.eq_of_nil
  refine .of_suffixed rfl fun _ => ?_
  exact .single (yields_named held) rfl

/-- A member of what is read back, as the token after it says. -/
theorem opens_member {kind : MemberKind} (own : IsRead target)
    (h : c.Spells (Node.words (.member span target name kind)) after)
    (method : kind = .methodCall ↔ after.kind = .leftParen) :
    Opens primary suffixes (.member span target name kind) c after := by
  obtain ⟨c₁, first, h⟩ := h.split
  obtain ⟨c₂, point, h⟩ := h.head
  obtain ⟨_, named, h⟩ := h.head
  obtain rfl := h.eq_of_nil
  have opens := own.suffixed first fun paren => by
    rw [point.fixed] at paren
    cases paren
  refine opens.extend fun node same => ?_
  refine ⟨.member _ node name kind, ?_, yields_member point named method⟩
  exact congrArg (Node.member .none · name kind) same

theorem isRead_member (own : IsRead target) : IsRead (.member span target name .get) := by
  intro c after h
  refine .of_suffixed rfl fun other => opens_member own h ?_
  refine ⟨nofun, fun paren => ?_⟩
  cases other paren

theorem isRead_index {place : Node} (own : IsRead target) (inner : IsRead place) :
    IsRead (.index span target place) := by
  intro c after h
  refine .of_suffixed rfl fun _ => ?_
  obtain ⟨c₁, first, h⟩ := h.split
  obtain ⟨c₂, opening, h⟩ := h.head
  obtain ⟨c₃, inside, h⟩ := h.split
  obtain ⟨_, closing, h⟩ := h.head
  obtain rfl := h.eq_of_nil
  have opens := own.suffixed first fun paren => by
    rw [opening.fixed] at paren
    cases paren
  obtain ⟨index, equal, yields⟩ := inner.expression inside (continues_fixed closing rfl)
  refine opens.extend fun node same => ?_
  refine ⟨.index _ node index, ?_, yields_index opening yields closing⟩
  exact congrArg₂ (Node.index .none) same equal

theorem isRead_binary {op : BinaryOp} {left right : Node} (first : IsRead left)
    (second : IsRead right) : IsRead (.binary span op left right) := by
  intro c after h
  have low := op.level.precedence_le
  refine ReadBack.of_chained (show _ = op.level.precedence from rfl) fun goes => ?_
  obtain ⟨c₁, before, h⟩ := h.split
  obtain ⟨c₂, operator, h⟩ := h.head
  have level : continues c₁.kind = op.level.precedence := by
    rw [operator.fixed]
    exact continues_kind op
  have opens := first.chained before (Nat.le_of_eq level)
  have tight := second.operand (Nat.succ_pos _) (by omega) h (Nat.lt_succ_of_le goes)
  obtain ⟨node, equal, yields⟩ := tight.operand
  refine opens.extend fun target same => ?_
  refine ⟨.binary _ op target node, ?_, yields_chain operator (operator?_kind op) yields⟩
  exact congrArg₂ (Node.binary .none op) same equal

theorem isRead_unary {op : UnaryOp} {operand : Node} (own : IsRead operand) :
    IsRead (.unary span op operand) := by
  intro c after h
  refine .of_reads (.inr rfl) fun stops => ?_
  obtain ⟨c₁, operator, h⟩ := h.head
  obtain ⟨node, same, yields⟩ := own.operand (by decide) (by decide) h stops
  exact ⟨.unary _ op node, congrArg (Node.unary .none op) same, yields_unary operator yields⟩

theorem isRead_assign (first : IsRead target) (second : IsRead value) :
    IsRead (.assign span target value) := by
  intro c after h
  refine .of_reads (.inl rfl) fun stops => ?_
  obtain ⟨c₁, before, h⟩ := h.split
  obtain ⟨c₂, equal, h⟩ := h.head
  have level : continues c₁.kind < 2 := by
    rw [equal.fixed]
    decide
  obtain ⟨place, same, yields⟩ := first.operand (by decide) (by decide) before level
  obtain ⟨given, also, more⟩ := second.expression h (Nat.lt_one_iff.1 stops)
  refine ⟨.assign _ place given, ?_, yields_assign yields equal more⟩
  exact congrArg₂ (Node.assign .none) same also

theorem isRead_call {callee : Node} (own : IsCalled callee) (all : ∀ arg ∈ nodes, IsRead arg) :
    IsRead (.call span callee nodes) := by
  intro c after h
  refine .of_suffixed rfl fun _ => ?_
  obtain ⟨c₁, first, h⟩ := h.split
  obtain ⟨_, opening, _⟩ := h.head
  obtain ⟨args, equal, yields⟩ := yields_enclosedArguments all h
  refine (own first opening.fixed).extend fun node same => ?_
  refine ⟨.call _ node args, ?_, yields_call opening.fixed yields⟩
  exact congrArg₂ (Node.call .none) same equal

theorem isRead_create (own : IsPath target) (all : ∀ arg ∈ nodes, IsRead arg) :
    IsRead (.create span target nodes) := by
  intro c after h
  refine .of_suffixed rfl fun _ => ?_
  obtain ⟨c₁, word, h⟩ := h.head
  obtain ⟨c₂, path, h⟩ := h.split
  obtain ⟨_, opening, _⟩ := h.head
  obtain ⟨name, c₃, node, first, same, rest⟩ := own path
  obtain ⟨args, equal, yields⟩ := yields_enclosedArguments all h
  have ends := rest (yields_noDotted (Cursor.kind_ne opening.fixed nofun))
  exact .single (yields_create word first ends yields) (congrArg₂ (Node.create .none) same equal)

theorem isRead_lambda (own : IsBody body) : IsRead (.lambda span params body) := by
  intro c after h
  refine .of_suffixed rfl fun _ => ?_
  obtain ⟨c₁, word, h⟩ := h.head
  obtain ⟨c₂, named, h⟩ := h.split
  obtain ⟨_, node, same, yields⟩ := own h
  refine .single (yields_lambda word (yields_paramWords named) yields) ?_
  exact congrArg (Node.lambda .none params) same

theorem isCalled_method (own : IsRead target) :
    IsCalled (.member span target name .methodCall) := by
  intro c after h paren
  exact opens_member own h ⟨fun _ => paren, fun _ => rfl⟩

theorem isCalled_of_isRead {e : Node} (own : IsRead e) : IsCalled e := by
  intro c after h paren
  unfold Node.calleeWords at h
  split at h
  next =>
    obtain ⟨node, same, yields⟩ := own.enclosed h
    exact .single yields same
  next other =>
    refine own.suffixed h fun _ => ?_
    unfold isField
    split
    next same => exact absurd rfl (other _ _ _)
    next => rfl

theorem isPath_root : IsPath (.named span name) := by
  intro c after h
  obtain ⟨_, first, h⟩ := h.head
  obtain rfl := h.eq_of_nil
  exact ⟨name, _, .named c.current.span name, first, rfl, id⟩

theorem isPath_branch (own : IsPath target) (tight : target.precedence = 8) :
    IsPath (.member span target name .get) := by
  intro c after h
  obtain ⟨c₁, path, h⟩ := h.split
  obtain ⟨c₂, point, h⟩ := h.head
  obtain ⟨c₃, named, h⟩ := h.head
  obtain rfl := h.eq_of_nil
  rw [Node.operandWords, tight, if_neg (by decide)] at path
  obtain ⟨first, next, node, held, same, rest⟩ := own path
  refine ⟨first, next, .member (c₃.spanFrom node.span) node name .get, held, ?_, fun more => ?_⟩
  · exact congrArg (Node.member .none · name .get) same
  · exact rest (yields_dotted point named more)

/-! ## Lists of statements -/

theorem kind_ne_of_continuesBranches {kind : Kind} (stops : continuesBranches c.kind = false)
    (does : continuesBranches kind = true) : c.kind ≠ kind := by
  intro same
  rw [same, does] at stops
  cases stops

theorem continuesBranches_of_closesBlock {kind : Kind} (h : closesBlock kind = false) :
    continuesBranches kind = false := by
  cases kind <;> first | rfl | cases h

theorem closesBlock_of_yields {node : Node} {last : Cursor} (h : Yields (expression c) node last) :
    closesBlock c.kind = false := by
  have starts := startsExpression_of_yields h
  revert starts
  cases c.kind <;> decide

/-- A statement that starts with a keyword or a sign. -/
theorem reads_fixed {kind : Kind} {next : Cursor} {e node : Node} (word : c.Holds (.fixed kind) next)
    (inside : closesBlock kind = false) (yields : Yields (statement c) node after)
    (same : node.bare = e.bare) :
    closesBlock c.kind = false ∧
      ∃ node : Node, node.bare = e.bare ∧ Yields (statement c) node after := by
  refine ⟨?_, node, same, yields⟩
  rw [word.fixed]
  exact inside

/-- Statements that are read back by a reader of lists, which ends as it ends after them. -/
theorem yields_statementWords {size : Cursor → Nat}
    {list : (c : Cursor) → Reading (List Node) (size c)}
    (step : ∀ {c c₁ c₂ first more}, closesBlock c.kind = false → Yields (statement c) first c₁ →
      Yields (list c₁) more c₂ → Yields (list c) (first :: more) c₂)
    (all : ∀ statement ∈ nodes, IsStatement statement) {last : Cursor}
    (h : c.Spells (Node.statementWords nodes) last) (stops : continuesBranches last.kind = false)
    (ends : Yields (list last) [] after) :
    continuesBranches c.kind = false ∧
      ∃ statements, Node.bareAll statements = Node.bareAll nodes ∧ Yields (list c) statements after := by
  induction nodes generalizing c with
  | nil =>
    obtain rfl := h.eq_of_nil
    exact ⟨stops, [], rfl, ends⟩
  | cons first rest ih =>
    obtain ⟨own, others⟩ := List.forall_mem_cons.1 all
    obtain ⟨c₁, one, h⟩ := h.split
    obtain ⟨further, more, same, yields⟩ := ih others h
    obtain ⟨inside, node, equal, reads⟩ := own one further
    refine ⟨continuesBranches_of_closesBlock inside, node :: more, ?_, step inside reads yields⟩
    exact congrArg₂ List.cons equal same

/-- Branches that are read back, the first after its keyword. -/
theorem yields_branchWords {keyword : Kind} (filled : branches ≠ [])
    (tests : ∀ branch ∈ branches, IsRead branch.1) (bodies : ∀ branch ∈ branches, IsBody branch.2)
    (h : c.Spells (Node.branchWords keyword branches) after) (stops : after.kind ≠ .elseIfWord) :
    ∃ next arms, c.Holds (.fixed keyword) next ∧
      Node.bareBranches arms = Node.bareBranches branches ∧
        Yields (branchList next) (arms, .closed) after := by
  induction branches generalizing c keyword with
  | nil => exact absurd rfl filled
  | cons branch rest ih =>
    obtain ⟨first, tests⟩ := List.forall_mem_cons.1 tests
    obtain ⟨second, bodies⟩ := List.forall_mem_cons.1 bodies
    obtain ⟨c₁, word, h⟩ := h.head
    obtain ⟨c₂, test, h⟩ := h.split
    obtain ⟨c₃, body, h⟩ := h.split
    obtain ⟨brace, block, same, reads⟩ := second body
    have level : continues c₂.kind = 0 := by
      rw [brace]
      rfl
    obtain ⟨condition, equal, yields⟩ := first.expression test level
    have pair : (condition.bare, block.bare) = (branch.1.bare, branch.2.bare) :=
      congrArg₂ Prod.mk equal same
    cases rest with
    | nil =>
      obtain rfl := h.eq_of_nil
      refine ⟨c₁, [(condition, block)], word, congrArg (fun pair => [pair]) pair, ?_⟩
      exact yields_lastBranch yields (yields_branchBody brace reads) stops
    | cons =>
      obtain ⟨c₄, arms, another, others, more⟩ := ih nofun tests bodies h
      refine ⟨c₁, (condition, block) :: arms, word, congrArg₂ List.cons pair others, ?_⟩
      exact yields_branch yields (yields_branchBody brace reads) another more

/-! ## Statements -/

theorem isBody_block (all : ∀ statement ∈ nodes, IsStatement statement) :
    IsBody (.block span nodes) := by
  intro c after h
  obtain ⟨c₁, opening, h⟩ := h.head
  obtain ⟨c₂, inside, h⟩ := h.split
  obtain ⟨_, closing, h⟩ := h.head
  obtain rfl := h.eq_of_nil
  have stops : continuesBranches c₂.kind = false := by
    rw [closing.fixed]
    rfl
  obtain ⟨_, statements, same, yields⟩ :=
    yields_statementWords yields_braceBody all inside stops (yields_braceEnd closing)
  refine ⟨opening.fixed, _, ?_, yields_block opening yields⟩
  exact congrArg (Node.block .none) same

theorem isStatement_of_isBody (own : IsBody body) : IsStatement body := by
  intro c after h _
  obtain ⟨brace, reads⟩ := own h
  refine ⟨?_, reads⟩
  rw [brace]
  rfl

theorem isStatement_plain (own : IsRead value) : IsStatement (.plain span value) := by
  intro c after h _
  obtain ⟨c₁, first, h⟩ := h.split
  obtain ⟨_, last, h⟩ := h.head
  obtain rfl := h.eq_of_nil
  obtain ⟨node, same, yields⟩ := own.expression first (continues_fixed last rfl)
  refine ⟨closesBlock_of_yields yields, _, ?_, yields_plain yields last⟩
  exact congrArg (Node.plain .none) same

theorem isStatement_empty : IsStatement (.empty span) := by
  intro c after h _
  obtain ⟨_, held, h⟩ := h.head
  obtain rfl := h.eq_of_nil
  exact reads_fixed held rfl (yields_empty held) rfl

theorem isStatement_declare : IsStatement (.declare span name none) := by
  intro c after h _
  obtain ⟨c₁, word, h⟩ := h.head
  obtain ⟨c₂, first, h⟩ := h.head
  obtain ⟨_, last, h⟩ := h.head
  obtain rfl := h.eq_of_nil
  have absent := yields_noInitializer (Cursor.kind_ne last.fixed nofun)
  exact reads_fixed word rfl (yields_declare word first absent last) rfl

theorem isStatement_initialized (own : IsRead value) :
    IsStatement (.declare span name (some value)) := by
  intro c after h _
  obtain ⟨c₁, word, h⟩ := h.head
  obtain ⟨c₂, first, h⟩ := h.head
  obtain ⟨c₃, equal, h⟩ := h.head
  obtain ⟨c₄, given, h⟩ := h.split
  obtain ⟨_, last, h⟩ := h.head
  obtain rfl := h.eq_of_nil
  obtain ⟨node, same, yields⟩ := own.expression given (continues_fixed last rfl)
  refine reads_fixed word rfl (yields_declare word first (yields_initializer equal yields) last) ?_
  exact congrArg (fun value => Node.declare .none name (some value)) same

theorem isStatement_function (own : IsBody body) :
    IsStatement (.function span name params body) := by
  intro c after h _
  obtain ⟨c₁, word, h⟩ := h.head
  obtain ⟨c₂, first, h⟩ := h.head
  obtain ⟨c₃, named, h⟩ := h.split
  obtain ⟨_, node, same, yields⟩ := own h
  refine reads_fixed word rfl (yields_function word first (yields_paramWords named) yields) ?_
  exact congrArg (Node.function .none name params) same

theorem isStatement_choose (filled : branches ≠ []) (tests : ∀ branch ∈ branches, IsRead branch.1)
    (bodies : ∀ branch ∈ branches, IsBody branch.2) :
    IsStatement (.choose span branches none) := by
  intro c after h stops
  obtain ⟨c₁, arms, word, same, yields⟩ :=
    yields_branchWords filled tests bodies h (kind_ne_of_continuesBranches stops rfl)
  have absent := yields_noElse (kind_ne_of_continuesBranches stops rfl)
  refine reads_fixed word rfl (yields_choose word yields absent) ?_
  exact congrArg (Node.choose .none · none) same

theorem isStatement_chooseElse {otherwise : Node} (filled : branches ≠ [])
    (tests : ∀ branch ∈ branches, IsRead branch.1) (bodies : ∀ branch ∈ branches, IsBody branch.2)
    (own : IsBody otherwise) : IsStatement (.choose span branches (some otherwise)) := by
  intro c after h _
  obtain ⟨c₁, first, h⟩ := h.split
  obtain ⟨c₂, other, h⟩ := h.head
  obtain ⟨c₃, arms, word, same, yields⟩ :=
    yields_branchWords filled tests bodies first (Cursor.kind_ne other.fixed nofun)
  obtain ⟨_, node, equal, last⟩ := own h
  refine reads_fixed word rfl (yields_choose word yields (yields_else other last)) ?_
  exact congrArg₂ (fun arms body => Node.choose .none arms (some body)) same equal

theorem isStatement_loop (own : IsBody body) : IsStatement (.loop span body) := by
  intro c after h _
  obtain ⟨c₁, word, h⟩ := h.head
  obtain ⟨_, node, same, yields⟩ := own h
  exact reads_fixed word rfl (yields_loop word yields) (congrArg (Node.loop .none) same)

theorem isStatement_leave : IsStatement (.leave span none) := by
  intro c after h _
  obtain ⟨c₁, word, h⟩ := h.head
  obtain ⟨_, last, h⟩ := h.head
  obtain rfl := h.eq_of_nil
  exact reads_fixed word rfl (yields_leave word last) rfl

theorem isStatement_leaveWith (own : IsRead value) : IsStatement (.leave span (some value)) := by
  intro c after h _
  obtain ⟨c₁, word, h⟩ := h.head
  obtain ⟨c₂, within, h⟩ := h.split
  obtain ⟨_, last, h⟩ := h.head
  obtain rfl := h.eq_of_nil
  obtain ⟨c₃, opening, within⟩ := within.head
  obtain ⟨c₄, inside, within⟩ := within.split
  obtain ⟨_, closing, within⟩ := within.head
  obtain rfl := within.eq_of_nil
  obtain ⟨node, same, yields⟩ := own.expression inside (continues_fixed closing rfl)
  refine reads_fixed word rfl (yields_leaveWith word opening yields closing last) ?_
  exact congrArg (fun value => Node.leave .none (some value)) same

theorem isStatement_give : IsStatement (.give span none) := by
  intro c after h _
  obtain ⟨c₁, word, h⟩ := h.head
  obtain ⟨_, last, h⟩ := h.head
  obtain rfl := h.eq_of_nil
  exact reads_fixed word rfl (yields_give word last) rfl

theorem isStatement_giveBack (own : IsRead value) : IsStatement (.give span (some value)) := by
  intro c after h _
  obtain ⟨c₁, word, h⟩ := h.head
  obtain ⟨c₂, given, h⟩ := h.split
  obtain ⟨_, last, h⟩ := h.head
  obtain rfl := h.eq_of_nil
  obtain ⟨node, same, yields⟩ := own.expression given (continues_fixed last rfl)
  have inside := closesBlock_of_yields yields
  have other : c₁.kind ≠ .semicolon := kind_ne_of_yields yields rfl
  refine reads_fixed word rfl (yields_giveBack word other inside yields last) ?_
  exact congrArg (fun value => Node.give .none (some value)) same

theorem isStatement_importFrom {alias? : Option String} (filled : params ≠ []) :
    IsStatement (.importFrom span params alias?) := by
  intro c after h _
  obtain ⟨name, more, rfl⟩ := List.exists_cons_of_ne_nil filled
  obtain ⟨c₁, word, h⟩ := h.head
  obtain ⟨c₂, first, h⟩ := h.head
  obtain ⟨c₃, rest, h⟩ := h.split
  cases alias? with
  | none =>
    obtain ⟨_, last, h⟩ := h.head
    obtain rfl := h.eq_of_nil
    have path := yields_pointWords rest (Cursor.kind_ne last.fixed nofun)
    exact reads_fixed word rfl (yields_import word first path last) rfl
  | some renamed =>
    obtain ⟨c₄, as, h⟩ := h.head
    obtain ⟨c₅, second, h⟩ := h.head
    obtain ⟨_, last, h⟩ := h.head
    obtain rfl := h.eq_of_nil
    have path := yields_pointWords rest (Cursor.kind_ne as.fixed nofun)
    exact reads_fixed word rfl (yields_importAs word first path as second last) rfl

end Parser

/-! ## The round trip -/

open HostScript.Parser

theorem Canonical.precedence_of_path {e : Node} (h : Canonical .path e) : e.precedence = 8 := by
  cases h <;> rfl

/-- **Canonical trees are read back**, each where it stands. -/
theorem Canonical.isReadBack {role : Role} {e : Node} (h : Canonical role e) : IsReadBack role e := by
  induction h with
  | literal written => exact isRead_literal written
  | named => exact isRead_named
  | member _ _ target => exact isRead_member target
  | index _ _ target place => exact isRead_index target place
  | binary _ _ left right => exact isRead_binary left right
  | unary _ operand => exact isRead_unary operand
  | assign _ _ target value => exact isRead_assign target value
  | call _ _ callee args => exact isRead_call callee args
  | create _ _ target args => exact isRead_create target args
  | lambda _ _ body => exact isRead_lambda body
  | method _ _ target => exact isCalled_method target
  | called _ e => exact isCalled_of_isRead e
  | root => exact isPath_root
  | branch path _ target => exact isPath_branch target path.precedence_of_path
  | block _ statements => exact isBody_block statements
  | nested _ body => exact isStatement_of_isBody body
  | plain _ e => exact isStatement_plain e
  | empty => exact isStatement_empty
  | declare => exact isStatement_declare
  | initialized _ _ value => exact isStatement_initialized value
  | function _ _ _ body => exact isStatement_function body
  | choose filled _ _ tests bodies => exact isStatement_choose filled tests bodies
  | chooseElse filled _ _ _ tests bodies otherwise =>
    exact isStatement_chooseElse filled tests bodies otherwise
  | loop _ body => exact isStatement_loop body
  | leave => exact isStatement_leave
  | leaveWith _ value => exact isStatement_leaveWith value
  | give => exact isStatement_give
  | giveBack _ value => exact isStatement_giveBack value
  | importFrom filled => exact isStatement_importFrom filled

/-- **Reading undoes printing**: the text of a canonical tree is read as the same tree, up to spans. -/
theorem parse_print {unit : Node} (h : IsCanonical unit) :
    (parse unit.print).map Node.bare = .ok unit.bare := by
  cases h with
  | @block span statements all =>
    have readable : Readable (Node.statementWords statements) :=
      readable_statementWords fun statement among => (all statement among).readable
    obtain ⟨c, last, read, spells, ends⟩ := Cursor.ofSource_spell readable
    have stops : continuesBranches last.kind = false := by
      rw [ends]
      rfl
    have own : ∀ statement ∈ statements, IsStatement statement := fun statement among =>
      (all statement among).isReadBack
    obtain ⟨_, nodes, same, fewer, yields⟩ :=
      yields_statementWords yields_statements own spells stops (yields_noStatements ends)
    have tree : parse (Node.print (.block span statements)) =
        .ok (.block (last.spanFrom c.current.span) nodes) := by
      rw [parse, Node.print, read]
      dsimp only [Except.mapError, bind, Except.bind]
      rw [yields]
      rfl
    rw [tree]
    exact congrArg (fun nodes => Except.ok (Node.block .none nodes)) same

/-- A declaration with operators of three levels, and a call of a member in parentheses and of a
method. -/
def roundTripUnit : Node :=
  .block .none
    [.declare .none "x" (some (.binary .none .mul
      (.binary .none .add (.named .none "a") (.named .none "b"))
      (.unary .none .neg (.literal .none (.int 1))))),
    .choose .none
      [(.named .none "x", .block .none [.plain .none (.call .none
        (.member .none (.call .none (.member .none (.named .none "o") "f" .get)
          [.named .none "x"]) "g" .methodCall) [.literal .none (.text "it's")])])] none]

theorem parse_print_roundTripUnit :
    IsCanonical roundTripUnit ∧
      roundTripUnit.print =
        "var x = ( a + b ) * - 1 ; if x \x7b ( o . f ) ( x ) . g ( \"it's\" ) ; \x7d" ∧
      (parse roundTripUnit.print).map Node.bare = .ok roundTripUnit.bare := by
  have name : ∀ name ∈ ["x", "a", "b", "o", "f", "g"], IsName name := by decide +kernel
  have canonical : IsCanonical roundTripUnit := by
    refine .block (List.forall_mem_cons.2 ⟨.initialized ?_ ?_, List.forall_mem_singleton.2 ?_⟩)
    · exact name _ (by decide)
    · refine .binary (.binary (.named ?_) (.named ?_)) (.unary (.literal (by decide)))
      · exact name _ (by decide)
      · exact name _ (by decide)
    · have test : Canonical .expression (.named .none "x") := .named (name _ (by decide))
      refine .choose nofun (List.forall_mem_singleton.2 test) (List.forall_mem_singleton.2 ?_)
      refine .block (List.forall_mem_singleton.2 (.plain (.call (.method (.call ?_ ?_) ?_) ?_)))
      · exact .called (.member (.named (name _ (by decide))) (name _ (by decide)))
      · exact List.forall_mem_singleton.2 test
      · exact name _ (by decide)
      · exact List.forall_mem_singleton.2 (.literal (by decide +kernel))
  exact ⟨canonical, by decide +kernel, parse_print canonical⟩

end HostScript
