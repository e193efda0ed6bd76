import HostScript.Text.Parts

/-!
# Files/Path — texts that name files

A path is a text whose parts are separated by slashes.  Empty parts and parts that are a dot mean
nothing, except for a dot at the very beginning, which is a part of its own.
-/

namespace HostScript.Path

/-- A path read from its end, without the slashes and dots there that mean nothing. -/
def skipEmpty : List Char → List Char
  | ['/'] => ['/']
  | '/' :: rest => skipEmpty rest
  | '.' :: '/' :: rest => skipEmpty ('/' :: rest)
  | cs => cs

/-- The path to the directory that a path lies in; none if the path has no part. -/
def parent? (path : String) : Option String :=
  match skipEmpty path.toList.reverse with
  | [] => none
  | ['/'] => none
  | cs => some (String.ofList (skipEmpty (cs.dropWhile (· ≠ '/'))).reverse)

/-- The last part of a path, if it is a name. -/
def name? (path : String) : Option String :=
  let part := ((skipEmpty path.toList.reverse).takeWhile (· ≠ '/')).reverse
  if part = [] || part = ['.'] || part = ['.', '.'] then none else some (String.ofList part)

/-- The name of a file up to its last dot, unless nothing is before it. -/
def stem (name : String) : String :=
  let reversed := name.toList.reverse
  match reversed.dropWhile (· ≠ '.') with
  | _ :: c :: before => String.ofList (c :: before).reverse
  | _ => name

/-- The path to a name in a directory. -/
def join (directory name : String) : String :=
  match directory.toList.getLast? with
  | none => name
  | some '/' => directory ++ name
  | some _ => directory ++ "/" ++ name

/-- The parts of a path. -/
def parts (path : List Char) : List String := (Text.partsOf '/' path).map String.ofList

end HostScript.Path
