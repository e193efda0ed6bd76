import HostScript.Syntax.Parser

/-!
# Proofs/Syntax/Printer — trees as text

A tree is printed as words with blanks between them.  Blocks stand in braces, every simple statement
ends in a semicolon, arguments and parameters have commas between them, and an operand stands in
parentheses just if it binds less tightly than its place demands: `Node.precedence` numbers the levels
of expressions from loose to tight.  Which trees the parser makes, and printing keeps apart, says
`Canonical`; what is left of a tree without its spans is `Node.bare`.
-/

namespace HostScript

/-! ## Words -/

/-- A word to be printed, by the kind and the text of the token that it is read as. -/
structure Word where
  kind : Kind
  text : String
  deriving DecidableEq, Repr

namespace Word

/-- A keyword or operator: its name in messages without the back quotes. -/
def fixed (kind : Kind) : Word := ⟨kind, String.ofList (kind.name.toList.drop 1).dropLast⟩

/-- An identifier. -/
def name (text : String) : Word := ⟨.identifier, text⟩

/-- Double quotes, unless the text has some itself. -/
def quote (text : String) : Char := if '"' ∈ text.toList then '\'' else '"'

/-- How a word is written: a string in quotes that it does not contain, all else as it is. -/
def spelling (w : Word) : List Char :=
  if w.kind = .text then quote w.text :: w.text.toList ++ [quote w.text] else w.text.toList

end Word

/-- Words with blanks between them. -/
def spell : List Word → List Char
  | [] => []
  | [w] => w.spelling
  | w :: rest => w.spelling ++ ' ' :: spell rest

/-- A comma before what follows, if anything does. -/
def separator {α : Type} : List α → List Word
  | [] => []
  | _ :: _ => [.fixed .comma]

/-- Names with commas between them. -/
def nameWords : List String → List Word
  | [] => []
  | first :: rest => .name first :: (separator rest ++ nameWords rest)

/-- Parameters in parentheses. -/
def paramWords (params : List String) : List Word :=
  .fixed .leftParen :: (nameWords params ++ [.fixed .rightParen])

/-- Further names of a path, each after a point. -/
def pointWords : List String → List Word
  | [] => []
  | name :: rest => .fixed .dot :: .name name :: pointWords rest

/-- The names of a path with points between them. -/
def pathWords : List String → List Word
  | [] => []
  | first :: rest => .name first :: pointWords rest

/-- The name that something is renamed to, after the word for that. -/
def aliasWords : Option String → List Word
  | none => []
  | some name => [.fixed .asWord, .name name]

/-- The words of a constant. -/
def Literal.word : Literal → Word
  | bool true => .fixed .trueWord
  | bool false => .fixed .falseWord
  | int value => ⟨.integer, Numeral.wordText value⟩
  | float value => ⟨.fraction, toString value⟩
  | text value => ⟨.text, value⟩

/-! ## Precedence -/

/-- The operator that stands for an operation. -/
def BinaryOp.kind : BinaryOp → Kind
  | add => .plus
  | sub => .minus
  | mul => .star
  | div => .slash
  | mod => .percent
  | pow => .caret
  | eq => .equalEqual
  | notEq => .bangEqual
  | lt => .less
  | ltEq => .lessEqual
  | gt => .greater
  | gtEq => .greaterEqual
  | and => .ampAmp
  | or => .barBar

/-- The operator that stands for an operation. -/
def UnaryOp.kind : UnaryOp → Kind
  | neg => .minus
  | not => .bang

/-- The levels of binary operators among those of expressions. -/
def Parser.Level.precedence : Parser.Level → Nat
  | disjunction => 2
  | conjunction => 3
  | comparison => 4
  | sum => 5
  | product => 6

/-- The level of an operation. -/
def BinaryOp.level : BinaryOp → Parser.Level
  | or => .disjunction
  | and => .conjunction
  | eq | notEq | lt | ltEq | gt | gtEq => .comparison
  | add | sub => .sum
  | mul | div | mod | pow => .product

namespace Node

/-- How tightly an expression binds: assignments are the loosest, then come the binary operators of
each level, the prefix operators, and everything else. -/
def precedence : Node → Nat
  | assign _ _ _ => 1
  | binary _ op _ _ => op.level.precedence
  | unary _ _ _ => 7
  | _ => 8

/-- Words in parentheses. -/
def enclosed (words : List Word) : List Word :=
  .fixed .leftParen :: (words ++ [.fixed .rightParen])

/-- An operand, of which the words are known, where an expression has to bind as tightly as given. -/
def operandWords (demand : Nat) (e : Node) (words : List Word) : List Word :=
  if e.precedence < demand then enclosed words else words

/-- What is called, of which the words are known: a member that is not called as a method is put in
parentheses. -/
def calleeWords (e : Node) (words : List Word) : List Word :=
  match e with
  | member _ _ _ .get => enclosed words
  | _ => operandWords 8 e words

/-! ## Trees -/

mutual

/-- The words of a tree. -/
def words : Node → List Word
  | literal _ value => [value.word]
  | named _ name => [.name name]
  | member _ target name _ => operandWords 8 target (words target) ++ [.fixed .dot, .name name]
  | index _ target place =>
    operandWords 8 target (words target) ++
      .fixed .leftBracket :: (words place ++ [.fixed .rightBracket])
  | binary _ op left right =>
    operandWords op.level.precedence left (words left) ++
      .fixed op.kind :: operandWords (op.level.precedence + 1) right (words right)
  | unary _ op operand => .fixed op.kind :: operandWords 7 operand (words operand)
  | assign _ target value => operandWords 2 target (words target) ++ .fixed .equal :: words value
  | call _ callee args => calleeWords callee (words callee) ++ enclosed (argumentWords args)
  | create _ target args => .fixed .newWord :: (words target ++ enclosed (argumentWords args))
  | lambda _ params body => .fixed .lambdaWord :: (paramWords params ++ words body)
  | declare _ name none => [.fixed .varWord, .name name, .fixed .semicolon]
  | declare _ name (some value) =>
    .fixed .varWord :: .name name :: .fixed .equal :: (words value ++ [.fixed .semicolon])
  | function _ name params body =>
    .fixed .functionWord :: .name name :: (paramWords params ++ words body)
  | choose _ branches none => branchWords .ifWord branches
  | choose _ branches (some body) =>
    branchWords .ifWord branches ++ .fixed .elseWord :: words body
  | loop _ body => .fixed .loopWord :: words body
  | leave _ none => [.fixed .breakWord, .fixed .semicolon]
  | leave _ (some value) =>
    .fixed .breakWord :: (enclosed (words value) ++ [.fixed .semicolon])
  | give _ none => [.fixed .returnWord, .fixed .semicolon]
  | give _ (some value) => .fixed .returnWord :: (words value ++ [.fixed .semicolon])
  | importFrom _ path alias? =>
    .fixed .importWord :: (pathWords path ++ (aliasWords alias? ++ [.fixed .semicolon]))
  | block _ statements =>
    .fixed .leftBrace :: (statementWords statements ++ [.fixed .rightBrace])
  | plain _ expression => words expression ++ [.fixed .semicolon]
  | empty _ => [.fixed .semicolon]

/-- Arguments with commas between them. -/
def argumentWords : List Node → List Word
  | [] => []
  | arg :: rest => words arg ++ (separator rest ++ argumentWords rest)

/-- Statements in order. -/
def statementWords : List Node → List Word
  | [] => []
  | statement :: rest => words statement ++ statementWords rest

/-- Tests and bodies in order, the first after the given keyword. -/
def branchWords (keyword : Kind) : List (Node × Node) → List Word
  | [] => []
  | (test, body) :: rest =>
    .fixed keyword :: (words test ++ (words body ++ branchWords .elseIfWord rest))

end

/-- The text of a whole source: its statements. -/
def print : Node → String
  | block _ statements => String.ofList (spell (statementWords statements))
  | tree => String.ofList (spell tree.words)

/-! ## Trees without spans -/

mutual

/-- A tree without its spans. -/
def bare : Node → Node
  | literal _ value => .literal .none value
  | named _ name => .named .none name
  | member _ target name kind => .member .none (bare target) name kind
  | index _ target place => .index .none (bare target) (bare place)
  | binary _ op left right => .binary .none op (bare left) (bare right)
  | unary _ op operand => .unary .none op (bare operand)
  | assign _ target value => .assign .none (bare target) (bare value)
  | call _ callee args => .call .none (bare callee) (bareAll args)
  | create _ target args => .create .none (bare target) (bareAll args)
  | declare _ name none => .declare .none name none
  | declare _ name (some value) => .declare .none name (some (bare value))
  | function _ name params body => .function .none name params (bare body)
  | lambda _ params body => .lambda .none params (bare body)
  | choose _ branches none => .choose .none (bareBranches branches) none
  | choose _ branches (some body) => .choose .none (bareBranches branches) (some (bare body))
  | loop _ body => .loop .none (bare body)
  | leave _ none => .leave .none none
  | leave _ (some value) => .leave .none (some (bare value))
  | give _ none => .give .none none
  | give _ (some value) => .give .none (some (bare value))
  | importFrom _ path alias? => .importFrom .none path alias?
  | block _ statements => .block .none (bareAll statements)
  | plain _ expression => .plain .none (bare expression)
  | empty _ => .empty .none

/-- Trees without their spans. -/
def bareAll : List Node → List Node
  | [] => []
  | tree :: rest => bare tree :: bareAll rest

/-- Tests and bodies without their spans. -/
def bareBranches : List (Node × Node) → List (Node × Node)
  | [] => []
  | (test, body) :: rest => (bare test, bare body) :: bareBranches rest

end

end Node

/-! ## Canonical trees -/

/-- A text that is read as an identifier: a word of letters, numbers and such that is no keyword. -/
def IsName (text : String) : Prop :=
  text.toList.head?.any Lexeme.startsWord = true ∧
    (∀ c ∈ text.toList.tail, Lexeme.continuesWord c = true) ∧ Kind.ofKeyword? text = none

instance (text : String) : Decidable (IsName text) :=
  decidable_of_iff (text.toList.head?.any Lexeme.startsWord = true ∧
      text.toList.tail.all Lexeme.continuesWord = true ∧ Kind.ofKeyword? text = none)
    (by rw [List.all_eq_true, IsName])

/-- A constant that can be written: no number below zero, which would be a prefix operator before
another constant, and no string with both kinds of quotes. -/
def Literal.IsWritten : Literal → Prop
  | bool _ => True
  | int value => 0 ≤ value.toInt
  | float _ => False
  | text value => ¬('"' ∈ value.toList ∧ '\'' ∈ value.toList)

instance (value : Literal) : Decidable value.IsWritten :=
  match value with
  | .bool _ => .isTrue trivial
  | .int value => inferInstanceAs (Decidable (0 ≤ value.toInt))
  | .float _ => .isFalse id
  | .text value => inferInstanceAs (Decidable (¬(_ ∧ _)))

/-- Where a tree stands. -/
inductive Role where
  | expression
  /-- What is called. -/
  | callee
  /-- The dotted name of what is created. -/
  | path
  /-- The body of a function or loop, or of a branch. -/
  | body
  | statement

/-- **Canonical trees**: expressions and statements where the language has them, and members that are
called as methods just where they stand before arguments. -/
inductive Canonical : Role → Node → Prop where
  | literal {span : Span} {value : Literal} :
    value.IsWritten → Canonical .expression (.literal span value)
  | named {span : Span} {name : String} : IsName name → Canonical .expression (.named span name)
  | member {span : Span} {target : Node} {name : String} :
    Canonical .expression target → IsName name →
      Canonical .expression (.member span target name .get)
  | index {span : Span} {target index : Node} :
    Canonical .expression target → Canonical .expression index →
      Canonical .expression (.index span target index)
  | binary {span : Span} {op : BinaryOp} {left right : Node} :
    Canonical .expression left → Canonical .expression right →
      Canonical .expression (.binary span op left right)
  | unary {span : Span} {op : UnaryOp} {operand : Node} :
    Canonical .expression operand → Canonical .expression (.unary span op operand)
  | assign {span : Span} {target value : Node} :
    Canonical .expression target → Canonical .expression value →
      Canonical .expression (.assign span target value)
  | call {span : Span} {callee : Node} {args : List Node} :
    Canonical .callee callee → (∀ arg ∈ args, Canonical .expression arg) →
      Canonical .expression (.call span callee args)
  | create {span : Span} {target : Node} {args : List Node} :
    Canonical .path target → (∀ arg ∈ args, Canonical .expression arg) →
      Canonical .expression (.create span target args)
  | lambda {span : Span} {params : List String} {body : Node} :
    (∀ name ∈ params, IsName name) → Canonical .body body →
      Canonical .expression (.lambda span params body)
  | method {span : Span} {target : Node} {name : String} :
    Canonical .expression target → IsName name →
      Canonical .callee (.member span target name .methodCall)
  | called {e : Node} : Canonical .expression e → Canonical .callee e
  | root {span : Span} {name : String} : IsName name → Canonical .path (.named span name)
  | branch {span : Span} {target : Node} {name : String} :
    Canonical .path target → IsName name → Canonical .path (.member span target name .get)
  | block {span : Span} {statements : List Node} :
    (∀ statement ∈ statements, Canonical .statement statement) →
      Canonical .body (.block span statements)
  | nested {body : Node} : Canonical .body body → Canonical .statement body
  | plain {span : Span} {e : Node} :
    Canonical .expression e → Canonical .statement (.plain span e)
  | empty {span : Span} : Canonical .statement (.empty span)
  | declare {span : Span} {name : String} :
    IsName name → Canonical .statement (.declare span name none)
  | initialized {span : Span} {name : String} {value : Node} :
    IsName name → Canonical .expression value →
      Canonical .statement (.declare span name (some value))
  | function {span : Span} {name : String} {params : List String} {body : Node} :
    IsName name → (∀ name ∈ params, IsName name) → Canonical .body body →
      Canonical .statement (.function span name params body)
  | choose {span : Span} {branches : List (Node × Node)} :
    branches ≠ [] → (∀ branch ∈ branches, Canonical .expression branch.1) →
      (∀ branch ∈ branches, Canonical .body branch.2) →
        Canonical .statement (.choose span branches none)
  | chooseElse {span : Span} {branches : List (Node × Node)} {otherwise : Node} :
    branches ≠ [] → (∀ branch ∈ branches, Canonical .expression branch.1) →
      (∀ branch ∈ branches, Canonical .body branch.2) → Canonical .body otherwise →
        Canonical .statement (.choose span branches (some otherwise))
  | loop {span : Span} {body : Node} :
    Canonical .body body → Canonical .statement (.loop span body)
  | leave {span : Span} : Canonical .statement (.leave span none)
  | leaveWith {span : Span} {value : Node} :
    Canonical .expression value → Canonical .statement (.leave span (some value))
  | give {span : Span} : Canonical .statement (.give span none)
  | giveBack {span : Span} {value : Node} :
    Canonical .expression value → Canonical .statement (.give span (some value))
  | importFrom {span : Span} {path : List String} {alias? : Option String} :
    path ≠ [] → (∀ name ∈ path, IsName name) → (∀ name ∈ alias?, IsName name) →
      Canonical .statement (.importFrom span path alias?)

/-- The canonical trees of whole sources. -/
def IsCanonical (unit : Node) : Prop := Canonical .body unit

end HostScript
