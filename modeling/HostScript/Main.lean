import HostScript.Command

/-!
# Main — the program

Reads the files that a script may need, answers the command, and prints.
-/

namespace HostScript.Main

/-- The names on the way from the root of the file system to a path. -/
def namesTo (path : String) : List String := (Path.parts path.toList).filter (· ≠ "")

/-- The files of a directory that can be read, with their text. -/
def directoryFiles (directory : String) : IO (List (List String × Option String)) := do
  try
    let mut files := []
    for entry in ← (← IO.FS.realPath directory).readDir do
      try
        let bytes ← IO.FS.readBinFile entry.path
        files := (namesTo entry.path.toString, String.fromUTF8? bytes) :: files
      catch _ => continue
    return files
  catch _ => return []

/-- The files of the working directory and of the directory of a script. -/
def filesFor (command : Command) : IO Files := do
  let working ← IO.currentDir
  let here ← directoryFiles "."
  let beside ←
    match command with
    | .run path | .tokens path | .parse path =>
      match Path.parent? path with
      | some directory => if directory = "" then pure [] else directoryFiles directory
      | none => pure []
    | _ => pure []
  return ⟨"", namesTo working.toString, here ++ beside, []⟩

/-- More steps than a script can make. -/
def allSteps : Nat := Nat.pow 2 62

end HostScript.Main

/-- Answers the arguments of the program. -/
def main (args : List String) : IO UInt32 := do
  let command := HostScript.Command.ofArguments args
  let files ← HostScript.Main.filesFor command
  match command.respond files HostScript.Main.allSteps with
  | none => return 1
  | some response =>
    IO.print response.output
    match response.notice with
    | .text t => IO.eprint t
    | .report r =>
      IO.eprintln r.header
      if let some location := r.location? then IO.eprintln ("   at " ++ location)
    return if response.succeeded then 0 else 1
