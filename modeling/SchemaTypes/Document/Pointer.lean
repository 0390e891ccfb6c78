import SchemaTypes.Text.Blank

/-!
# Reference pointers

A local pointer names a schema by its last segment, in the escaping of JSON pointers: `~0` stands
for a tilde and `~1` for a slash.
-/
namespace SchemaTypes.Document.Pointer

/-- The place of the component schemas in a document. -/
def schemaPlace : String :=
  "#/components/schemas/"

/-- Replaces each occurrence of the two characters `a b`, from the left. -/
def replacePair (a b : Char) (stand : Char) : List Char → List Char
  | [] => []
  | [c] => [c]
  | c :: d :: cs =>
    if c = a ∧ d = b then stand :: replacePair a b stand cs
    else c :: replacePair a b stand (d :: cs)

/-- Undoes the escaping of a segment: first the slashes, then the tildes. -/
def unescape (segment : List Char) : List Char :=
  replacePair '~' '0' '~' (replacePair '~' '1' '/' segment)

/-- What follows the last slash, or everything if there is none. -/
def lastSegment (cs : List Char) : List Char :=
  (cs.reverse.takeWhile (· ≠ '/')).reverse

/-- The schema key that a local pointer names. -/
def target (pointer : String) : Option String :=
  match Text.trimChars pointer.toList with
  | '#' :: path =>
    match lastSegment path with
    | [] => none
    | segment => some (String.ofList (unescape segment))
  | _ => none

/-- The pointer to the component schema of the given name. -/
def toSchema (name : String) : String :=
  schemaPlace ++ name

end SchemaTypes.Document.Pointer
