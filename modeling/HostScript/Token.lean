import HostScript.Source.Span

/-!
# Token — the words of a script

A token is a kind, the text it was written with, and where it stands.  Keywords are told from
identifiers by their exact spelling; three of them are other spellings of operators.
-/

namespace HostScript

/-- What a token is. -/
inductive Kind where
  | identifier | integer | fraction | text
  | ifWord | thenWord | elseWord | elseIfWord | endWord | varWord | functionWord | lambdaWord
  | returnWord | breakWord | loopWord | importWord | asWord | newWord | trueWord | falseWord
  | bang | percent | amp | leftParen | rightParen | star | plus | caret | comma | minus | dot
  | slash | colon | tilde | less | equal | greater | question | semicolon | bar | leftBrace
  | rightBrace | leftBracket | rightBracket
  | bangEqual | ampAmp | barBar | equalEqual | lessEqual | greaterEqual | shiftLeft | shiftRight
  | caretCaret
  | endOfInput
  deriving DecidableEq, Repr, Inhabited

namespace Kind

/-- The name of a kind in messages: a description, or the word or operator between back quotes. -/
def name : Kind → String
  | identifier => "identifier"
  | integer => "integer literal"
  | fraction => "float literal"
  | text => "string literal"
  | ifWord => "`if`"
  | thenWord => "`then`"
  | elseWord => "`else`"
  | elseIfWord => "`elseif`"
  | endWord => "`end`"
  | varWord => "`var`"
  | functionWord => "`function`"
  | lambdaWord => "`lambda`"
  | returnWord => "`return`"
  | breakWord => "`break`"
  | loopWord => "`loop`"
  | importWord => "`import`"
  | asWord => "`as`"
  | newWord => "`new`"
  | trueWord => "`true`"
  | falseWord => "`false`"
  | bang => "`!`"
  | percent => "`%`"
  | amp => "`&`"
  | leftParen => "`(`"
  | rightParen => "`)`"
  | star => "`*`"
  | plus => "`+`"
  | caret => "`^`"
  | comma => "`,`"
  | minus => "`-`"
  | dot => "`.`"
  | slash => "`/`"
  | colon => "`:`"
  | tilde => "`~`"
  | less => "`<`"
  | equal => "`=`"
  | greater => "`>`"
  | question => "`?`"
  | semicolon => "`;`"
  | bar => "`|`"
  | leftBrace => "`\x7b`"
  | rightBrace => "`\x7d`"
  | leftBracket => "`[`"
  | rightBracket => "`]`"
  | bangEqual => "`!=`"
  | ampAmp => "`&&`"
  | barBar => "`||`"
  | equalEqual => "`==`"
  | lessEqual => "`<=`"
  | greaterEqual => "`>=`"
  | shiftLeft => "`<<`"
  | shiftRight => "`>>`"
  | caretCaret => "`^^`"
  | endOfInput => "end of input"

/-- The kind of a keyword, by its exact spelling: words in other letter case are identifiers. -/
def ofKeyword? : String → Option Kind
  | "if" => some ifWord
  | "then" => some thenWord
  | "else" => some elseWord
  | "elseif" => some elseIfWord
  | "end" | "endif" => some endWord
  | "var" => some varWord
  | "function" | "defun" => some functionWord
  | "lambda" => some lambdaWord
  | "return" => some returnWord
  | "break" => some breakWord
  | "loop" => some loopWord
  | "import" => some importWord
  | "as" => some asWord
  | "new" => some newWord
  | "true" => some trueWord
  | "false" => some falseWord
  | "and" => some ampAmp
  | "or" => some barBar
  | "eq" => some equalEqual
  | _ => none

/-- The operator of one character. -/
def ofChar? : Char → Option Kind
  | '!' => some bang
  | '%' => some percent
  | '&' => some amp
  | '(' => some leftParen
  | ')' => some rightParen
  | '*' => some star
  | '+' => some plus
  | '^' => some caret
  | ',' => some comma
  | '-' => some minus
  | '.' => some dot
  | '/' => some slash
  | ':' => some colon
  | '~' => some tilde
  | '<' => some less
  | '=' => some equal
  | '>' => some greater
  | '?' => some question
  | ';' => some semicolon
  | '|' => some bar
  | '\x7b' => some leftBrace
  | '\x7d' => some rightBrace
  | '[' => some leftBracket
  | ']' => some rightBracket
  | _ => none

/-- The operator of two characters.  A pair that is not listed is two operators. -/
def ofPair? : Char → Char → Option Kind
  | '!', '=' => some bangEqual
  | '<', '>' => some bangEqual
  | '&', '&' => some ampAmp
  | '|', '|' => some barBar
  | '*', '*' => some caret
  | '^', '^' => some caretCaret
  | '<', '=' => some lessEqual
  | '<', '<' => some shiftLeft
  | '=', '=' => some equalEqual
  | '>', '=' => some greaterEqual
  | '>', '>' => some shiftRight
  | _, _ => none

end Kind

/-- A word of a script.  The text of a string is what stands between its quotes. -/
structure Token where
  kind : Kind
  text : String
  span : Span
  position : Position
  deriving DecidableEq, Repr, Inhabited

/-- Why no token could be read. -/
inductive LexError.Cause where
  /-- A character that starts no token. -/
  | invalidCharacter (c : Char)
  /-- A string without a closing quote. -/
  | unterminatedText
  deriving DecidableEq, Repr

/-- A place of a source where no token could be read, with the text that was passed over. -/
structure LexError where
  cause : LexError.Cause
  position : Position
  span : Span
  deriving DecidableEq, Repr

end HostScript
