import HostScript.Numeral.Fraction
import HostScript.Syntax
import HostScript.Token.Cursor

/-!
# Syntax/Parser — reading tokens into a tree

Statements are told apart by their first token.  Expressions have, from loose to tight: assignment,
which groups to the right; five levels of binary operators, each grouping to the left; the prefix
operators; and the postfix forms `.name`, `(arguments)` and `[index]`.  Separators and terminators
are optional.

Every reader returns the cursor after what it read, with the proof that fewer tokens remain there:
`Read.fewer`.  That proof is what ends the recursion, so no reader needs a bound from outside.
-/

namespace HostScript

namespace Parser

/-! ## Steps -/

/-- What was read, and the cursor after it, where fewer than `n` tokens remain. -/
structure Read (α : Type) (n : Nat) where
  value : α
  next : Cursor
  fewer : next.remaining < n

/-- A reader's result: what it read, or why nothing could be read. -/
abbrev Reading (α : Type) (n : Nat) := Except SyntaxError (Read α n)

/-- Consumes the held token. -/
def shift (c : Cursor) (held : c.kind ≠ .endOfInput) : Reading Token c.remaining :=
  match step : c.advance with
  | (.ok token, after) => .ok ⟨token, after, Cursor.remaining_advance step held⟩
  | (.error e, _) => .error (.lex e)

/-- Consumes the held token, which has to be of a kind. -/
def require (c : Cursor) (kind : Kind) (word : kind ≠ .endOfInput := by decide) :
    Reading Token c.remaining :=
  if same : c.kind = kind then shift c (same ▸ word)
  else .error (.parse (c.unexpected kind.name))

/-- Consumes the held token if it is of a kind, and says whether it was. -/
def skip (c : Cursor) (kind : Kind) (word : kind ≠ .endOfInput := by decide) :
    Reading Bool (c.remaining + 1) :=
  if same : c.kind = kind then do
    let ⟨_, after, fewer⟩ ← shift c (same ▸ word)
    return ⟨true, after, Nat.lt_succ_of_lt fewer⟩
  else .ok ⟨false, c, Nat.lt_succ_self _⟩

/-- The failure at the held token, naming what would have been accepted. -/
def refuse {α : Type} {n : Nat} (c : Cursor) (expected : String) : Reading α n :=
  .error (.parse (c.unexpected expected))

/-! ## Operators -/

/-- The levels of binary operators, from loose to tight. -/
inductive Level where
  | disjunction | conjunction | comparison | sum | product
  deriving DecidableEq, Repr

namespace Level

/-- The operator of a level that a token stands for. -/
def operator? : Level → Kind → Option BinaryOp
  | disjunction, .barBar => some .or
  | conjunction, .ampAmp => some .and
  | comparison, .equalEqual => some .eq
  | comparison, .bangEqual => some .notEq
  | comparison, .less => some .lt
  | comparison, .lessEqual => some .ltEq
  | comparison, .greater => some .gt
  | comparison, .greaterEqual => some .gtEq
  | sum, .plus => some .add
  | sum, .minus => some .sub
  | product, .star => some .mul
  | product, .slash => some .div
  | product, .percent => some .mod
  | product, .caret => some .pow
  | _, _ => none

/-- The level of the operands, or none where they are prefix expressions. -/
def tighter? : Level → Option Level
  | disjunction => some conjunction
  | conjunction => some comparison
  | comparison => some sum
  | sum => some product
  | product => none

/-- The number of levels from this one to the tightest. -/
def depth : Level → Nat
  | disjunction => 5
  | conjunction => 4
  | comparison => 3
  | sum => 2
  | product => 1

theorem kind_ne_of_operator? {level : Level} {kind : Kind} {op : BinaryOp}
    (h : level.operator? kind = some op) : kind ≠ .endOfInput := by
  rintro rfl
  cases level <;> cases h

theorem depth_of_tighter? {level tighter : Level} (h : level.tighter? = some tighter) :
    tighter.depth < level.depth := by
  cases level <;> cases h <;> decide

theorem depth_pos (level : Level) : 0 < level.depth := by cases level <;> decide

end Level

/-- The prefix operator a token stands for. -/
def prefixOperator? : Kind → Option UnaryOp
  | .minus => some .neg
  | .bang => some .not
  | _ => none

theorem kind_ne_of_prefixOperator? {kind : Kind} {op : UnaryOp}
    (h : prefixOperator? kind = some op) : kind ≠ .endOfInput := by
  rintro rfl
  cases h

/-- The constant of a number or string, or of a word for a truth value.  A number is refused when it
is whole and has no sixty-four bit value, or has an exponent marker without digits. -/
def literal (token : Token) : Except ParseError Literal :=
  let invalid : ParseError := ⟨.invalidNumber token.text, token.position, token.span⟩
  match token.kind with
  | .integer =>
    match Numeral.readWord? token.text.toList with
    | some value => .ok (.int value)
    | none => .error invalid
  | .fraction =>
    let bare := (token.text.toList.reverse.dropWhile fun c => c == 'f' || c == 'F').reverse
    match Numeral.fraction? bare with
    | some value => .ok (.float value)
    | none => .error invalid
  | .text => .ok (.text token.text)
  | word => .ok (.bool (word = .trueWord))

/-- The tokens that start a constant. -/
def startsLiteral : Kind → Bool
  | .integer | .fraction | .text | .trueWord | .falseWord => true
  | _ => false

/-- The tokens that close the enclosing block, before which a bare `return` needs no terminator. -/
def closesBlock : Kind → Bool
  | .rightBrace | .endWord | .elseIfWord | .elseWord | .endOfInput => true
  | _ => false

/-! ## Names -/

/-- Names up to a closing parenthesis; commas between them are optional. -/
def names (c : Cursor) : Reading (List String) c.remaining := do
  if closing : c.kind = .rightParen then
    let ⟨_, c₁, h₁⟩ ← shift c (by simp [closing])
    return ⟨[], c₁, h₁⟩
  else
    let ⟨name, c₁, h₁⟩ ← require c .identifier
    let ⟨_, c₂, h₂⟩ ← skip c₁ .comma
    let ⟨more, c₃, h₃⟩ ← names c₂
    return ⟨name.text :: more, c₃, by omega⟩
termination_by c.remaining
decreasing_by omega

/-- The parameters of a function or lambda, in parentheses. -/
def parameters (c : Cursor) : Reading (List String) c.remaining := do
  let ⟨_, c₁, h₁⟩ ← require c .leftParen
  let ⟨params, c₂, h₂⟩ ← names c₁
  return ⟨params, c₂, by omega⟩

/-- The names after points, each after a point. -/
def path (c : Cursor) : Reading (List String) (c.remaining + 1) := do
  if point : c.kind = .dot then
    let ⟨_, c₁, h₁⟩ ← shift c (by simp [point])
    let ⟨name, c₂, h₂⟩ ← require c₁ .identifier
    let ⟨more, c₃, h₃⟩ ← path c₂
    return ⟨name.text :: more, c₃, by omega⟩
  else return ⟨[], c, Nat.lt_succ_self _⟩
termination_by c.remaining
decreasing_by omega

/-- A dotted name, as member accesses on what was read before. -/
def dotted (target : Node) (c : Cursor) : Reading Node (c.remaining + 1) := do
  if point : c.kind = .dot then
    let ⟨_, c₁, h₁⟩ ← shift c (by simp [point])
    let ⟨name, c₂, h₂⟩ ← require c₁ .identifier
    let ⟨node, c₃, h₃⟩ ← dotted (.member (c₂.spanFrom target.span) target name.text .get) c₂
    return ⟨node, c₃, by omega⟩
  else return ⟨target, c, Nat.lt_succ_self _⟩
termination_by c.remaining
decreasing_by omega

/-! ## Expressions and statements -/

/-- How a branch ends: closed, or cut short by the next branch, so that the conditional around it
still owes an `end`. -/
inductive BranchEnd where
  | closed
  | owing
  deriving DecidableEq, Repr

mutual

/-- An expression: a binary expression, perhaps the target of an assignment. -/
def expression (c : Cursor) : Reading Node c.remaining := do
  let ⟨target, c₁, h₁⟩ ← binary .disjunction c
  if assigns : c₁.kind = .equal then
    let ⟨_, c₂, h₂⟩ ← shift c₁ (by simp [assigns])
    let ⟨value, c₃, h₃⟩ ← expression c₂
    return ⟨.assign (target.span.merge value.span) target value, c₃, by omega⟩
  else return ⟨target, c₁, h₁⟩
termination_by 32 * c.remaining + 14
decreasing_by
  · simp only [Level.depth]
    omega
  · omega

/-- Operands of a level between its operators. -/
def binary (level : Level) (c : Cursor) : Reading Node c.remaining := do
  let ⟨left, c₁, h₁⟩ ← operand level c
  let ⟨node, c₂, h₂⟩ ← chain level left c₁
  return ⟨node, c₂, by omega⟩
termination_by 32 * c.remaining + 2 * level.depth + 3
decreasing_by all_goals omega

/-- An operand of a level. -/
def operand (level : Level) (c : Cursor) : Reading Node c.remaining :=
  match _tight : level.tighter? with
  | some tighter => binary tighter c
  | none => unary c
termination_by 32 * c.remaining + 2 * level.depth + 2
decreasing_by
  · have := Level.depth_of_tighter? _tight
    omega
  · have := level.depth_pos
    omega

/-- The operators of a level and the operands after them, grouped to the left. -/
def chain (level : Level) (left : Node) (c : Cursor) : Reading Node (c.remaining + 1) :=
  match operator : level.operator? c.kind with
  | some op => do
    let ⟨_, c₁, h₁⟩ ← shift c (Level.kind_ne_of_operator? operator)
    let ⟨right, c₂, h₂⟩ ← operand level c₁
    let ⟨node, c₃, h₃⟩ ← chain level (.binary (left.span.merge right.span) op left right) c₂
    return ⟨node, c₃, by omega⟩
  | none => .ok ⟨left, c, Nat.lt_succ_self _⟩
termination_by 32 * c.remaining
decreasing_by
  · have : level.depth ≤ 5 := by cases level <;> decide
    omega
  · omega

/-- Prefix operators before a postfix expression. -/
def unary (c : Cursor) : Reading Node c.remaining :=
  match operator : prefixOperator? c.kind with
  | some op => do
    let ⟨token, c₁, h₁⟩ ← shift c (kind_ne_of_prefixOperator? operator)
    let ⟨operand, c₂, h₂⟩ ← unary c₁
    return ⟨.unary (c₂.spanFrom token.span) op operand, c₂, by omega⟩
  | none => postfixed c
termination_by 32 * c.remaining + 2
decreasing_by all_goals omega

/-- A primary expression and the postfix forms after it. -/
def postfixed (c : Cursor) : Reading Node c.remaining := do
  let ⟨node, c₁, h₁⟩ ← primary c
  let ⟨node, c₂, h₂⟩ ← suffixes node c₁
  return ⟨node, c₂, by omega⟩
termination_by 32 * c.remaining + 1
decreasing_by all_goals omega

/-- The postfix forms after an expression.  A member directly before arguments is a method call. -/
def suffixes (node : Node) (c : Cursor) : Reading Node (c.remaining + 1) := do
  if point : c.kind = .dot then
    let ⟨_, c₁, h₁⟩ ← shift c (by simp [point])
    let ⟨name, c₂, h₂⟩ ← require c₁ .identifier
    let kind := if c₂.kind = .leftParen then MemberKind.methodCall else .get
    let ⟨node, c₃, h₃⟩ ← suffixes (.member (c₂.spanFrom node.span) node name.text kind) c₂
    return ⟨node, c₃, by omega⟩
  else if opening : c.kind = .leftParen then
    let ⟨args, c₁, h₁⟩ ← arguments c
    let ⟨node, c₂, h₂⟩ ← suffixes (.call (c₁.spanFrom node.span) node args) c₁
    return ⟨node, c₂, by omega⟩
  else if bracket : c.kind = .leftBracket then
    let ⟨_, c₁, h₁⟩ ← shift c (by simp [bracket])
    let ⟨index, c₂, h₂⟩ ← expression c₁
    let ⟨_, c₃, h₃⟩ ← require c₂ .rightBracket
    let ⟨node, c₄, h₄⟩ ← suffixes (.index (c₃.spanFrom node.span) node index) c₃
    return ⟨node, c₄, by omega⟩
  else return ⟨node, c, Nat.lt_succ_self _⟩
termination_by 32 * c.remaining + 17
decreasing_by all_goals omega

/-- Arguments in parentheses. -/
def arguments (c : Cursor) : Reading (List Node) c.remaining := do
  let ⟨_, c₁, h₁⟩ ← require c .leftParen
  let ⟨args, c₂, h₂⟩ ← argumentList c₁
  return ⟨args, c₂, by omega⟩
termination_by 32 * c.remaining + 16
decreasing_by all_goals omega

/-- Expressions up to a closing parenthesis; commas between them are optional. -/
def argumentList (c : Cursor) : Reading (List Node) c.remaining := do
  if closing : c.kind = .rightParen then
    let ⟨_, c₁, h₁⟩ ← shift c (by simp [closing])
    return ⟨[], c₁, h₁⟩
  else if c.atEnd then refuse c Kind.rightParen.name
  else
    let ⟨arg, c₁, h₁⟩ ← expression c
    let ⟨_, c₂, h₂⟩ ← skip c₁ .comma
    let ⟨more, c₃, h₃⟩ ← argumentList c₂
    return ⟨arg :: more, c₃, by omega⟩
termination_by 32 * c.remaining + 15
decreasing_by all_goals omega

/-- An expression in parentheses, a constant, a name, a creation or a lambda. -/
def primary (c : Cursor) : Reading Node c.remaining := do
  if opening : c.kind = .leftParen then
    let ⟨_, c₁, h₁⟩ ← shift c (by simp [opening])
    let ⟨inner, c₂, h₂⟩ ← expression c₁
    let ⟨_, c₃, h₃⟩ ← require c₂ .rightParen
    return ⟨inner, c₃, by omega⟩
  else if constant : startsLiteral c.kind then
    let ⟨token, c₁, h₁⟩ ← shift c (by rintro same; simp [same, startsLiteral] at constant)
    let value ← (literal token).mapError .parse
    return ⟨.literal token.span value, c₁, h₁⟩
  else if word : c.kind = .identifier then
    let ⟨token, c₁, h₁⟩ ← shift c (by simp [word])
    return ⟨.named token.span token.text, c₁, h₁⟩
  else if creates : c.kind = .newWord then
    let ⟨token, c₁, h₁⟩ ← shift c (by simp [creates])
    let ⟨first, c₂, h₂⟩ ← require c₁ .identifier
    let ⟨target, c₃, h₃⟩ ← dotted (.named first.span first.text) c₂
    let ⟨args, c₄, h₄⟩ ← arguments c₃
    return ⟨.create (c₄.spanFrom token.span) target args, c₄, by omega⟩
  else if binds : c.kind = .lambdaWord then
    let ⟨token, c₁, h₁⟩ ← shift c (by simp [binds])
    let ⟨params, c₂, h₂⟩ ← parameters c₁
    let ⟨body, c₃, h₃⟩ ← statement c₂
    return ⟨.lambda (c₃.spanFrom token.span) params body, c₃, by omega⟩
  else refuse c "expression"
termination_by 32 * c.remaining
decreasing_by all_goals omega

/-- A statement, told by its first token. -/
def statement (c : Cursor) : Reading Node c.remaining := do
  if terminator : c.kind = .semicolon then
    let ⟨token, c₁, h₁⟩ ← shift c (by simp [terminator])
    return ⟨.empty token.span, c₁, h₁⟩
  else if brace : c.kind = .leftBrace then
    let ⟨token, c₁, h₁⟩ ← shift c (by simp [brace])
    let ⟨body, c₂, h₂⟩ ← braceBody c₁
    return ⟨.block (c₂.spanFrom token.span) body, c₂, by omega⟩
  else if c.kind = .thenWord then
    let ⟨(node, _), c₁, h₁⟩ ← thenBlock c
    return ⟨node, c₁, h₁⟩
  else if loops : c.kind = .loopWord then
    let ⟨token, c₁, h₁⟩ ← shift c (by simp [loops])
    let ⟨body, c₂, h₂⟩ ← statement c₁
    return ⟨.loop (c₂.spanFrom token.span) body, c₂, by omega⟩
  else if tests : c.kind = .ifWord then
    let ⟨token, c₁, h₁⟩ ← shift c (by simp [tests])
    let ⟨(branches, ending), c₂, h₂⟩ ← branchList c₁
    let ⟨otherwise, c₃, h₃⟩ ← elsePart ending c₂
    return ⟨.choose (c₃.spanFrom token.span) branches otherwise, c₃, by omega⟩
  else if defines : c.kind = .functionWord then
    let ⟨token, c₁, h₁⟩ ← shift c (by simp [defines])
    let ⟨name, c₂, h₂⟩ ← require c₁ .identifier
    let ⟨params, c₃, h₃⟩ ← parameters c₂
    let ⟨body, c₄, h₄⟩ ← statement c₃
    return ⟨.function (c₄.spanFrom token.span) name.text params body, c₄, by omega⟩
  else if returns : c.kind = .returnWord then
    let ⟨token, c₁, h₁⟩ ← shift c (by simp [returns])
    let ⟨bare, c₂, h₂⟩ ← skip c₁ .semicolon
    if bare || closesBlock c₂.kind then return ⟨.give (c₂.spanFrom token.span) none, c₂, by omega⟩
    else
      let ⟨value, c₃, h₃⟩ ← expression c₂
      let ⟨_, c₄, h₄⟩ ← skip c₃ .semicolon
      return ⟨.give (c₄.spanFrom token.span) (some value), c₄, by omega⟩
  else if declares : c.kind = .varWord then
    let ⟨token, c₁, h₁⟩ ← shift c (by simp [declares])
    let ⟨name, c₂, h₂⟩ ← require c₁ .identifier
    let ⟨init, c₃, h₃⟩ ← initializer c₂
    let ⟨_, c₄, h₄⟩ ← skip c₃ .semicolon
    return ⟨.declare (c₄.spanFrom token.span) name.text init, c₄, by omega⟩
  else if imports : c.kind = .importWord then
    let ⟨token, c₁, h₁⟩ ← shift c (by simp [imports])
    let ⟨first, c₂, h₂⟩ ← require c₁ .identifier
    let ⟨more, c₃, h₃⟩ ← path c₂
    let ⟨renamed, c₄, h₄⟩ ← skip c₃ .asWord
    if renamed then
      let ⟨name, c₅, h₅⟩ ← require c₄ .identifier
      let ⟨_, c₆, h₆⟩ ← skip c₅ .semicolon
      return ⟨.importFrom (c₆.spanFrom token.span) (first.text :: more) (some name.text), c₆,
        by omega⟩
    else
      let ⟨_, c₅, h₅⟩ ← skip c₄ .semicolon
      return ⟨.importFrom (c₅.spanFrom token.span) (first.text :: more) none, c₅, by omega⟩
  else if leaves : c.kind = .breakWord then
    let ⟨token, c₁, h₁⟩ ← shift c (by simp [leaves])
    if opening : c₁.kind = .leftParen then
      let ⟨_, c₂, h₂⟩ ← shift c₁ (by simp [opening])
      let ⟨value, c₃, h₃⟩ ← expression c₂
      let ⟨_, c₄, h₄⟩ ← require c₃ .rightParen
      let ⟨_, c₅, h₅⟩ ← skip c₄ .semicolon
      return ⟨.leave (c₅.spanFrom token.span) (some value), c₅, by omega⟩
    else
      let ⟨_, c₂, h₂⟩ ← skip c₁ .semicolon
      return ⟨.leave (c₂.spanFrom token.span) none, c₂, by omega⟩
  else
    let start := c.current.span
    let ⟨value, c₁, h₁⟩ ← expression c
    let ⟨_, c₂, h₂⟩ ← skip c₁ .semicolon
    return ⟨.plain (c₂.spanFrom start) value, c₂, by omega⟩
termination_by 32 * c.remaining + 15
decreasing_by all_goals omega

/-- The value a variable starts with, if one is written. -/
def initializer (c : Cursor) : Reading (Option Node) (c.remaining + 1) := do
  if assigns : c.kind = .equal then
    let ⟨_, c₁, h₁⟩ ← shift c (by simp [assigns])
    let ⟨value, c₂, h₂⟩ ← expression c₁
    return ⟨some value, c₂, by omega⟩
  else return ⟨none, c, Nat.lt_succ_self _⟩
termination_by 32 * c.remaining
decreasing_by omega

/-- Statements up to a closing brace. -/
def braceBody (c : Cursor) : Reading (List Node) c.remaining := do
  if closing : c.kind = .rightBrace then
    let ⟨_, c₁, h₁⟩ ← shift c (by simp [closing])
    return ⟨[], c₁, h₁⟩
  else if c.atEnd then refuse c Kind.rightBrace.name
  else
    let ⟨first, c₁, h₁⟩ ← statement c
    let ⟨more, c₂, h₂⟩ ← braceBody c₁
    return ⟨first :: more, c₂, by omega⟩
termination_by 32 * c.remaining + 16
decreasing_by all_goals omega

/-- A block that starts with `then`. -/
def thenBlock (c : Cursor) : Reading (Node × BranchEnd) c.remaining := do
  let ⟨token, c₁, h₁⟩ ← require c .thenWord
  let ⟨(body, ending), c₂, h₂⟩ ← thenBody c₁
  return ⟨(.block (c₂.spanFrom token.span) body, ending), c₂, by omega⟩
termination_by 32 * c.remaining
decreasing_by omega

/-- Statements up to an `end`, which is consumed, or up to the next branch, which is not. -/
def thenBody (c : Cursor) : Reading (List Node × BranchEnd) (c.remaining + 1) := do
  if closing : c.kind = .endWord then
    let ⟨_, c₁, h₁⟩ ← shift c (by simp [closing])
    return ⟨([], .closed), c₁, by omega⟩
  else if c.kind = .elseIfWord || c.kind = .elseWord then
    return ⟨([], .owing), c, Nat.lt_succ_self _⟩
  else if c.atEnd then refuse c Kind.endWord.name
  else
    let ⟨first, c₁, h₁⟩ ← statement c
    let ⟨(more, ending), c₂, h₂⟩ ← thenBody c₁
    return ⟨(first :: more, ending), c₂, by omega⟩
termination_by 32 * c.remaining + 16
decreasing_by all_goals omega

/-- The body of a branch: a block that starts with `then`, or a statement. -/
def branchBody (c : Cursor) : Reading (Node × BranchEnd) c.remaining := do
  if c.kind = .thenWord then thenBlock c
  else
    let ⟨node, c₁, h₁⟩ ← statement c
    return ⟨(node, .closed), c₁, h₁⟩
termination_by 32 * c.remaining + 16
decreasing_by all_goals omega

/-- Tests with their bodies, and how the last body ends. -/
def branchList (c : Cursor) : Reading (List (Node × Node) × BranchEnd) c.remaining := do
  let ⟨test, c₁, h₁⟩ ← expression c
  let ⟨(body, ending), c₂, h₂⟩ ← branchBody c₁
  if another : c₂.kind = .elseIfWord then
    let ⟨_, c₃, h₃⟩ ← shift c₂ (by simp [another])
    let ⟨(more, ending), c₄, h₄⟩ ← branchList c₃
    return ⟨((test, body) :: more, ending), c₄, by omega⟩
  else return ⟨([(test, body)], ending), c₂, by omega⟩
termination_by 32 * c.remaining + 15
decreasing_by all_goals omega

/-- What is done when all tests fail.  After a branch that was cut short it runs up to the `end`
that is owed. -/
def elsePart (ending : BranchEnd) (c : Cursor) : Reading (Option Node) (c.remaining + 1) := do
  if otherwise : c.kind = .elseWord then
    let ⟨token, c₁, h₁⟩ ← shift c (by simp [otherwise])
    match ending with
    | .owing =>
      let ⟨(body, ending), c₂, h₂⟩ ← thenBody c₁
      match ending with
      | .owing => refuse c₂ Kind.endWord.name
      | .closed => return ⟨some (.block (c₂.spanFrom token.span) body), c₂, by omega⟩
    | .closed =>
      let ⟨body, c₂, h₂⟩ ← statement c₁
      return ⟨some body, c₂, by omega⟩
  else
    match ending with
    | .owing => refuse c Kind.endWord.name
    | .closed => return ⟨none, c, Nat.lt_succ_self _⟩
termination_by 32 * c.remaining
decreasing_by all_goals omega

end

/-- Statements up to the end of the source. -/
def statements (c : Cursor) : Reading (List Node) (c.remaining + 1) := do
  if c.atEnd then return ⟨[], c, Nat.lt_succ_self _⟩
  else
    let ⟨first, c₁, h₁⟩ ← statement c
    let ⟨more, c₂, h₂⟩ ← statements c₁
    return ⟨first :: more, c₂, by omega⟩
termination_by c.remaining
decreasing_by omega

end Parser

/-- The tree of a whole source: a block of its statements. -/
def parse (source : String) : Except SyntaxError Node := do
  let c ← (Cursor.ofSource source).mapError .lex
  let ⟨body, after, _⟩ ← Parser.statements c
  return .block (after.spanFrom c.current.span) body

end HostScript
