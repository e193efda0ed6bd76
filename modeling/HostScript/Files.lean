import HostScript.Files.Path

/-!
# Files — the files that scripts are read from

Files are known by the names on the way to them from a root.  A directory is what a file or the
working directory lies in, or what has been made on the way to a file.  Nothing but directories is known of what lies above the root.
-/

namespace HostScript

/-- The files below a root. -/
structure Files where
  /-- The path to the root, without a slash at its end. -/
  root : String
  /-- The names on the way from the root to the working directory. -/
  working : List String
  /-- The files by the names on the way to them, with their text; none if their bytes are no text. -/
  entries : List (List String × Option String)
  /-- Directories that may hold no file, by the names on the way to them. -/
  directories : List (List String)
  deriving DecidableEq, Repr

/-- Why a file cannot be read. -/
inductive ReadFailure where
  | missing
  | directory
  /-- A name on the way to it is that of a file. -/
  | throughFile
  | notText
  deriving DecidableEq, Repr

/-- The words for a failure. -/
def ReadFailure.message : ReadFailure → String
  | missing => "No such file or directory (os error 2)"
  | directory => "Is a directory (os error 21)"
  | throughFile => "Not a directory (os error 20)"
  | notText => "stream did not contain valid UTF-8"

/-- Where a path leads: to a place below the root, or above it. -/
inductive Place where
  | inside (names : List String)
  | above
  deriving DecidableEq, Repr

namespace Files

/-- No files. -/
def empty : Files := ⟨"", [], [], []⟩

/-- Whether the names lead to a directory. -/
def isDirectory (files : Files) (names : List String) : Bool :=
  (files.working :: files.directories).any names.isPrefixOf ||
    files.entries.any fun e => names.isPrefixOf e.1 && names.length < e.1.length

/-- Whether the names lead to a file. -/
def isEntry (files : Files) (names : List String) : Bool := files.entries.any (·.1 = names)

/-- Goes on to the next part of a path. -/
def step (files : Files) (place : Place) (part : String) : Except ReadFailure Place :=
  match place with
  | .above => if part = "" || part = "." || part = ".." then .ok .above else .error .missing
  | .inside names =>
    if files.isEntry names then .error .throughFile
    else if part = "" || part = "." then .ok place
    else if part = ".." then .ok (if names = [] then .above else .inside names.dropLast)
    else
      let inner := names ++ [part]
      if files.isEntry inner || files.isDirectory inner then .ok (.inside inner)
      else .error .missing

/-- The place a path leads to.  A path that begins with the root goes on from there, another one that
begins with a slash from above it, and any other from the working directory. -/
def locate (files : Files) (path : String) : Except ReadFailure Place :=
  let cs := path.toList
  let root := files.root.toList
  if path = "" then .error .missing
  else if cs = root then .ok (.inside [])
  else if (root ++ ['/']).isPrefixOf cs then
    (Path.parts (cs.drop (root.length + 1))).foldlM files.step (.inside [])
  else if cs.head? = some '/' then (Path.parts (cs.drop 1)).foldlM files.step .above
  else (Path.parts cs).foldlM files.step (.inside files.working)

/-- The path to a place that does not depend on the working directory. -/
def fullPath (files : Files) : Place → String
  | .inside names => names.foldl (fun path name => path ++ "/" ++ name) files.root
  | .above => "/"

/-- The text of a file and the full path to it. -/
def read (files : Files) (path : String) : Except ReadFailure (String × String) := do
  let place ← files.locate path
  match place with
  | .above => throw .directory
  | .inside names =>
    match files.entries.find? (·.1 = names) with
    | some (_, some text) => return (text, files.fullPath place)
    | some (_, none) => throw .notText
    | none => throw .directory

/-- Whether a path leads to a file. -/
def isFile (files : Files) (path : String) : Bool :=
  match files.locate path with
  | .ok (.inside names) => files.isEntry names
  | _ => false

/-- Goes on to a directory, which is made if it is missing; two dots lead out of one. -/
def enter (files : Files) (names : List String) (part : String) : Files × List String :=
  if part = ".." then (files, names.dropLast)
  else
    let inner := names ++ [part]
    (if files.isDirectory inner then files
      else { files with directories := inner :: files.directories }, inner)

/-- Writes a file, given by a path from the working directory.  The directories on the way to it are
made. -/
def write (files : Files) (path : String) (content : Option String) : Files :=
  let parts := (Path.parts path.toList).filter fun p => p ≠ "" && p ≠ "."
  let (files, way) :=
    parts.dropLast.foldl (fun (files, names) part => files.enter names part)
      (files, files.working)
  let names := way ++ parts.getLast?.toList
  { files with entries := (names, content) :: files.entries.filter (·.1 ≠ names) }

end Files

end HostScript
