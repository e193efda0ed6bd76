import HostScript.Syntax.Parser

/-!
# Proofs/Syntax/Unmeasured — the grammar without a measure

The readers of the parser end because every reading carries the proof that fewer tokens remain.  Here the
same grammar is read without that proof, by one recursion over its forms: loops go on as long as the token
that is held tells them to, and a form is read where another one needs it.  Nothing in the definition says
that it ever ends; an attempt that does not is `none`.

A reading keeps the tokens that it has taken, one after the other, also when it fails in the end.
-/

namespace HostScript

namespace Unmeasured

/-! ## Attempts -/

/-- A cursor, and the tokens that have been taken so far. -/
structure Tape where
  cursor : Cursor
  taken : List Token

/-- **An attempt to read something** from a tape: nothing if it never ends, else what has been read or why
that failed, and the tape after it. -/
abbrev Attempt := ExceptT SyntaxError (StateT Tape Option)

/-- The cursor of the tape. -/
def here : Attempt Cursor := do return (← get).cursor

/-- What a step of the cursor leads to, after some tokens. -/
def settle (taken : List Token) : Except LexError Token × Cursor → Attempt Token
  | (.ok token, after) => do
    set (Tape.mk after (taken ++ [token]))
    return token
  | (.error e, after) => do
    set (Tape.mk after taken)
    throw (.lex e)

/-- Takes the held token, whichever it is. -/
def take : Attempt Token := do
  let tape ← get
  settle tape.taken tape.cursor.advance

/-- Fails at the held token, naming what would have been accepted. -/
def refuse {α : Type} (expected : String) : Attempt α := do
  throw (.parse ((← here).unexpected expected))

/-- Takes the held token, which has to be of a kind. -/
def require (kind : Kind) : Attempt Token := do
  if (← here).kind = kind then take else refuse kind.name

/-- Takes the held token if it is of a kind, and says whether it was. -/
def skip (kind : Kind) : Attempt Bool := do
  if (← here).kind = kind then
    let _ ← take
    return true
  else return false

/-- The span from a place up to the token that was taken last. -/
def spanFrom (start : Span) : Attempt Span := do return (← here).spanFrom start

/-! ## Forms -/

open HostScript.Parser (Level prefixOperator? literal startsLiteral closesBlock BranchEnd)

/-- **The forms of the grammar**, by what is made of them. -/
inductive Form : Type → Type where
  /-- Names up to a closing parenthesis. -/
  | names : Form (List String)
  /-- Names in parentheses. -/
  | parameters : Form (List String)
  /-- The names after points. -/
  | path : Form (List String)
  /-- The names after points, as members of what comes before them. -/
  | dotted (target : Node) : Form Node
  /-- An expression. -/
  | expression : Form Node
  /-- Operands of a level between its operators. -/
  | binary (level : Level) : Form Node
  /-- An operand of a level. -/
  | operand (level : Level) : Form Node
  /-- The operators of a level and the operands after them. -/
  | chain (level : Level) (left : Node) : Form Node
  /-- Prefix operators before a postfix expression. -/
  | unary : Form Node
  /-- A primary expression and the postfix forms after it. -/
  | postfixed : Form Node
  /-- The postfix forms after an expression. -/
  | suffixes (node : Node) : Form Node
  /-- Arguments in parentheses. -/
  | arguments : Form (List Node)
  /-- Expressions up to a closing parenthesis. -/
  | argumentList : Form (List Node)
  /-- An expression in parentheses, a constant, a name, a creation or a lambda. -/
  | primary : Form Node
  /-- A statement, told by its first token. -/
  | statement : Form Node
  /-- The value a variable starts with, if one is written. -/
  | initializer : Form (Option Node)
  /-- Statements up to a closing brace. -/
  | braceBody : Form (List Node)
  /-- A block that starts with `then`. -/
  | thenBlock : Form (Node × BranchEnd)
  /-- Statements up to an `end`, which is taken, or up to the next branch, which is not. -/
  | thenBody : Form (List Node × BranchEnd)
  /-- The body of a branch. -/
  | branchBody : Form (Node × BranchEnd)
  /-- Tests with their bodies, and how the last body ends. -/
  | branchList : Form (List (Node × Node) × BranchEnd)
  /-- What is done when all tests fail. -/
  | elsePart (ending : BranchEnd) : Form (Option Node)
  /-- Statements up to the end of the source. -/
  | statements : Form (List Node)

namespace Form

/-- **Reads a form**, without an end in sight. -/
def read {α : Type} : Form α → Attempt α
  | names => do
    if (← here).kind = .rightParen then
      let _ ← take
      return []
    else
      let name ← require .identifier
      let _ ← skip .comma
      let more ← names |>.read
      return name.text :: more
  | parameters => do
    let _ ← require .leftParen
    names |>.read
  | path => do
    if (← here).kind = .dot then
      let _ ← take
      let name ← require .identifier
      let more ← path |>.read
      return name.text :: more
    else return []
  | dotted target => do
    if (← here).kind = .dot then
      let _ ← take
      let name ← require .identifier
      dotted (.member (← spanFrom target.span) target name.text .get) |>.read
    else return target
  | expression => do
    let target ← binary .disjunction |>.read
    if (← here).kind = .equal then
      let _ ← take
      let value ← expression |>.read
      return .assign (target.span.merge value.span) target value
    else return target
  | binary level => do
    let left ← operand level |>.read
    chain level left |>.read
  | operand level =>
    match level.tighter? with
    | some tighter => binary tighter |>.read
    | none => unary |>.read
  | chain level left => do
    match level.operator? (← here).kind with
    | some op =>
      let _ ← take
      let right ← operand level |>.read
      chain level (.binary (left.span.merge right.span) op left right) |>.read
    | none => return left
  | unary => do
    match prefixOperator? (← here).kind with
    | some op =>
      let token ← take
      let operand ← unary |>.read
      return .unary (← spanFrom token.span) op operand
    | none => postfixed |>.read
  | postfixed => do
    let node ← primary |>.read
    suffixes node |>.read
  | suffixes node => do
    if (← here).kind = .dot then
      let _ ← take
      let name ← require .identifier
      let kind := if (← here).kind = .leftParen then MemberKind.methodCall else .get
      suffixes (.member (← spanFrom node.span) node name.text kind) |>.read
    else if (← here).kind = .leftParen then
      let args ← arguments |>.read
      suffixes (.call (← spanFrom node.span) node args) |>.read
    else if (← here).kind = .leftBracket then
      let _ ← take
      let index ← expression |>.read
      let _ ← require .rightBracket
      suffixes (.index (← spanFrom node.span) node index) |>.read
    else return node
  | arguments => do
    let _ ← require .leftParen
    argumentList |>.read
  | argumentList => do
    if (← here).kind = .rightParen then
      let _ ← take
      return []
    else if (← here).atEnd then refuse Kind.rightParen.name
    else
      let arg ← expression |>.read
      let _ ← skip .comma
      let more ← argumentList |>.read
      return arg :: more
  | primary => do
    if (← here).kind = .leftParen then
      let _ ← take
      let inner ← expression |>.read
      let _ ← require .rightParen
      return inner
    else if startsLiteral (← here).kind then
      let token ← take
      match literal token with
      | .ok value => return .literal token.span value
      | .error e => throw (.parse e)
    else if (← here).kind = .identifier then
      let token ← take
      return .named token.span token.text
    else if (← here).kind = .newWord then
      let token ← take
      let first ← require .identifier
      let target ← dotted (.named first.span first.text) |>.read
      let args ← arguments |>.read
      return .create (← spanFrom token.span) target args
    else if (← here).kind = .lambdaWord then
      let token ← take
      let params ← parameters |>.read
      let body ← statement |>.read
      return .lambda (← spanFrom token.span) params body
    else refuse "expression"
  | statement => do
    if (← here).kind = .semicolon then
      let token ← take
      return .empty token.span
    else if (← here).kind = .leftBrace then
      let token ← take
      let body ← braceBody |>.read
      return .block (← spanFrom token.span) body
    else if (← here).kind = .thenWord then
      let (node, _) ← thenBlock |>.read
      return node
    else if (← here).kind = .loopWord then
      let token ← take
      let body ← statement |>.read
      return .loop (← spanFrom token.span) body
    else if (← here).kind = .ifWord then
      let token ← take
      let (branches, ending) ← branchList |>.read
      let otherwise ← elsePart ending |>.read
      return .choose (← spanFrom token.span) branches otherwise
    else if (← here).kind = .functionWord then
      let token ← take
      let name ← require .identifier
      let params ← parameters |>.read
      let body ← statement |>.read
      return .function (← spanFrom token.span) name.text params body
    else if (← here).kind = .returnWord then
      let token ← take
      let bare ← skip .semicolon
      if bare || closesBlock (← here).kind then return .give (← spanFrom token.span) none
      else
        let value ← expression |>.read
        let _ ← skip .semicolon
        return .give (← spanFrom token.span) (some value)
    else if (← here).kind = .varWord then
      let token ← take
      let name ← require .identifier
      let init ← initializer |>.read
      let _ ← skip .semicolon
      return .declare (← spanFrom token.span) name.text init
    else if (← here).kind = .importWord then
      let token ← take
      let first ← require .identifier
      let more ← path |>.read
      if ← skip .asWord then
        let name ← require .identifier
        let _ ← skip .semicolon
        return .importFrom (← spanFrom token.span) (first.text :: more) (some name.text)
      else
        let _ ← skip .semicolon
        return .importFrom (← spanFrom token.span) (first.text :: more) none
    else if (← here).kind = .breakWord then
      let token ← take
      if (← here).kind = .leftParen then
        let _ ← take
        let value ← expression |>.read
        let _ ← require .rightParen
        let _ ← skip .semicolon
        return .leave (← spanFrom token.span) (some value)
      else
        let _ ← skip .semicolon
        return .leave (← spanFrom token.span) none
    else
      let start := (← here).current.span
      let value ← expression |>.read
      let _ ← skip .semicolon
      return .plain (← spanFrom start) value
  | initializer => do
    if (← here).kind = .equal then
      let _ ← take
      let value ← expression |>.read
      return some value
    else return none
  | braceBody => do
    if (← here).kind = .rightBrace then
      let _ ← take
      return []
    else if (← here).atEnd then refuse Kind.rightBrace.name
    else
      let first ← statement |>.read
      let more ← braceBody |>.read
      return first :: more
  | thenBlock => do
    let token ← require .thenWord
    let (body, ending) ← thenBody |>.read
    return (.block (← spanFrom token.span) body, ending)
  | thenBody => do
    if (← here).kind = .endWord then
      let _ ← take
      return ([], .closed)
    else if (← here).kind = .elseIfWord || (← here).kind = .elseWord then return ([], .owing)
    else if (← here).atEnd then refuse Kind.endWord.name
    else
      let first ← statement |>.read
      let (more, ending) ← thenBody |>.read
      return (first :: more, ending)
  | branchBody => do
    if (← here).kind = .thenWord then thenBlock |>.read
    else
      let node ← statement |>.read
      return (node, .closed)
  | branchList => do
    let test ← expression |>.read
    let (body, ending) ← branchBody |>.read
    if (← here).kind = .elseIfWord then
      let _ ← take
      let (more, ending) ← branchList |>.read
      return ((test, body) :: more, ending)
    else return ([(test, body)], ending)
  | elsePart ending => do
    if (← here).kind = .elseWord then
      let token ← take
      match ending with
      | .owing =>
        let (body, ending) ← thenBody |>.read
        match ending with
        | .owing => refuse Kind.endWord.name
        | .closed => return some (.block (← spanFrom token.span) body)
      | .closed =>
        let body ← statement |>.read
        return some body
    else
      match ending with
      | .owing => refuse Kind.endWord.name
      | .closed => return none
  | statements => do
    if (← here).atEnd then return []
    else
      let first ← statement |>.read
      let more ← statements |>.read
      return first :: more
partial_fixpoint

end Form

/-! ## Sources -/

/-- The tree of a source, and the tokens that have been taken to read it. -/
def parse (source : String) : Option (Except SyntaxError Node × List Token) :=
  match Cursor.ofSource source with
  | .error e => some (.error (.lex e), [])
  | .ok c =>
    (Form.statements.read ⟨c, []⟩).map fun (answer, tape) =>
      (answer.map fun body => .block (tape.cursor.spanFrom c.current.span) body, tape.taken)

end Unmeasured

end HostScript
