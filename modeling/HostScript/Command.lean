import HostScript.Execute
import HostScript.Report
import HostScript.Syntax.Outline

/-!
# Command — what the program does for its arguments

A command runs a file, evaluates a text, or shows the tokens or the tree of a file.  Its answer is
what is printed, what is reported, and whether it succeeded.
-/

namespace HostScript

/-- What is written beside the output: a text, or the report of an error. -/
inductive Notice where
  | text (t : String)
  | report (r : Report)
  deriving DecidableEq, Repr

/-- The answer to a command. -/
structure Response where
  succeeded : Bool
  output : String
  notice : Notice
  deriving DecidableEq, Repr

/-- What the program is asked to do. -/
inductive Command where
  | run (path : String)
  | eval (source : String)
  | tokens (path : String)
  | parse (path : String)
  | help
  | version
  /-- A command without the operand that it needs. -/
  | incomplete (name operand : String)
  | unknown (name : String)
  deriving DecidableEq, Repr

namespace Response

/-- Success. -/
def success (output : String) : Response := ⟨true, output, .text ""⟩

/-- Failure. -/
def failure (output : String) (notice : Notice) : Response := ⟨false, output, notice⟩

/-- A failure to run or read a source.  It is shown against the source if it has a position there. -/
def ofError (output path : String) (source? : Option String) (e : ScriptError) : Response :=
  match source?, e.position? with
  | some source, some _ => failure output (.report (.ofError path source e))
  | _, _ => failure output (.text ("error: " ++ e.message ++ "\n"))

end Response

namespace Command

/-- What the program can do. -/
def usage : String :=
  "Brisk scripting language\n\nUsage: brisk <command> [args]\n\nCommands:\n" ++
  "  run <file>       Execute a script file\n" ++
  "  eval <source>    Evaluate an expression and print its value\n" ++
  "  tokens <file>    Print the tokens of a file\n" ++
  "  parse <file>     Print the syntax tree of a file\n" ++
  "  help             Show this message\n" ++
  "  version          Show the version\n\n" ++
  "Set BRISK_LOG (e.g. BRISK_LOG=brisk_eval=debug) for diagnostic logs,\n" ++
  "and BRISK_LOG_TREE=1 to render them as span trees.\n"

/-- The version of the program. -/
def versionText : String := "brisk 0.1.0\n"

/-- The command that arguments ask for; what follows an operand is ignored. -/
def ofArguments : List String → Command
  | [] => help
  | "run" :: path :: _ => run path
  | "eval" :: source :: _ => eval source
  | "tokens" :: path :: _ => tokens path
  | "parse" :: path :: _ => parse path
  | ["eval"] => incomplete "eval" "<source>"
  | ["run"] => incomplete "run" "<file>"
  | ["tokens"] => incomplete "tokens" "<file>"
  | ["parse"] => incomplete "parse" "<file>"
  | name :: _ =>
    if ["help", "--help", "-h"].contains name then help
    else if ["version", "--version", "-V"].contains name then version
    else unknown name

/-- A text filled up with blanks to a number of characters, on the left. -/
def padLeft (width : Nat) (t : String) : String :=
  String.ofList (List.replicate (width - t.length) ' ') ++ t

/-- A text filled up with blanks to a number of characters, on the right. -/
def padRight (width : Nat) (t : String) : String :=
  t ++ String.ofList (List.replicate (width - t.length) ' ')

/-- The line that shows a token. -/
def tokenLine (t : Token) : String :=
  padLeft 7 t.position.text ++ "  " ++ padRight 12 t.kind.name ++ " " ++ Text.quoted t.text ++ "\n"

/-- Shows something that is made of the text of a file. -/
def showFile (files : Files) (path : String) (make : String → Except ScriptError String) :
    Response :=
  match files.read path with
  | .error e => .failure "" (.text ("error: cannot read " ++ path ++ ": " ++ e.message ++ "\n"))
  | .ok (source, _) =>
    match make source with
    | .ok output => .success output
    | .error e => .ofError "" path (some source) e

/-- Runs a file as a module. -/
def runFile (files : Files) (fuel : Nat) (path : String) : Option Response :=
  let (setting, s, rt) := defaultHost files
  (Machine.executeFile setting fuel rt path s).map fun (answer, s) =>
    match answer with
    | .ok _ => .success s.printed
    | .error e => .ofError s.printed path ((files.read path).toOption.map (·.1)) e

/-- Evaluates a text in an empty module and shows its value. -/
def evalSource (files : Files) (fuel : Nat) (source : String) : Option Response :=
  let (setting, s, rt) := defaultHost files
  let (module, s) := s.newSpace
  (Machine.execute setting fuel rt module source s).map fun (answer, s) =>
    match answer with
    | .ok v => .success (s.printed ++ s.display v ++ "\n")
    | .error e => .ofError s.printed "<expr>" (some source) e

/-- The answer to a command; none if a script makes more machine steps than it may. -/
def respond (files : Files) (fuel : Nat) : Command → Option Response
  | run path => runFile files fuel path
  | eval source => evalSource files fuel source
  | tokens path =>
    some <| showFile files path fun source =>
      match tokenize source with
      | .ok ts => .ok (String.join (ts.map tokenLine))
      | .error e => .error (.lex e)
  | parse path =>
    some <| showFile files path fun source =>
      match HostScript.parse source with
      | .ok tree => .ok (tree.outline.render 0 ++ "\n")
      | .error e => .error (.ofSyntax e)
  | help => some (.success usage)
  | version => some (.success versionText)
  | incomplete name operand =>
    some (.failure "" (.text ("Usage: brisk " ++ name ++ " " ++ operand ++ "\n")))
  | unknown name => some (.failure usage (.text ("Unknown command: " ++ name ++ "\n\n")))

end Command

end HostScript
