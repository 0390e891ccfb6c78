/-!
# Paths

Paths as texts, with their components between slashes.
-/
namespace SchemaTypes.Files

def isAbsolute (path : String) : Bool :=
  path.toList.head? = some '/'

/-- The path of a file in a directory. An absolute one stays as it is. -/
def join (directory name : String) : String :=
  if isAbsolute name || directory.isEmpty then name
  else if directory.toList.getLast? = some '/' then directory ++ name
  else directory ++ "/" ++ name

/-- The texts between slashes. -/
def components (path : String) : List (List Char) :=
  path.toList.splitOn '/'

/-- The components that are not empty and do not stand for the directory itself. -/
def properComponents (path : String) : List (List Char) :=
  (components path).filter fun c => c ≠ [] && c ≠ ['.']

/-- What follows the last point of a file's name, unless nothing is before it. -/
def fileExtension? (path : String) : Option String := do
  let name ← (properComponents path).getLast?
  if name = ['.', '.'] then none
  else
    let reversed := name.reverse
    match reversed.dropWhile (· ≠ '.') with
    | _ :: _ :: _ => some (String.ofList (reversed.takeWhile (· ≠ '.')).reverse)
    | _ => none

/-- Is a file taken to be YAML by its name? -/
def isYaml (path : String) : Bool :=
  match fileExtension? path with
  | some found => ["yaml", "yml"].contains (String.ofList (found.toList.map Char.toLower))
  | none => false

end SchemaTypes.Files
