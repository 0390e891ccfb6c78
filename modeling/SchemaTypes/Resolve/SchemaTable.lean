import SchemaTypes.Document.Schema
import SchemaTypes.Error
import SchemaTypes.Naming.Identifier
import SchemaTypes.Naming.NameTable

/-!
# Schema tables

The component schemas under names that are identifiers and distinct. References to a component are
redirected to its new name.
-/
namespace SchemaTypes

open Data Naming

/-- The schemas by name, in document order, and the name that each key of the document was given. -/
structure SchemaTable where
  schemas : Entries Schema
  names : Entries String
deriving Inhabited

namespace SchemaTable

/-- Gives each key a name, in order. -/
def nameKeys : List String → NameTable → Except Error (List String × NameTable)
  | [], taken => .ok ([], taken)
  | key :: rest, taken =>
    match normalize key true with
    | "" => .error (.namelessSchema key)
    | base => do
      let (name, taken) := taken.claim base
      let (names, taken) ← nameKeys rest taken
      pure (name :: names, taken)

/-- A pointer to a known key points to the key's name; any other pointer stays. -/
def redirect (names : Entries String) (pointer : String) : String :=
  match (Document.Pointer.target pointer).bind fun key => Entries.get? names key with
  | some name => Document.Pointer.toSchema name
  | none => pointer

/-- The table of the entries, and the names taken with those of the table. -/
def ofEntries (entries : Entries Schema) (taken : NameTable) :
    Except Error (SchemaTable × NameTable) := do
  let (given, taken) ← nameKeys (entries.map Prod.fst) taken
  let names := (entries.map Prod.fst).zip given
  let schemas := given.zip (entries.map fun e => e.2.mapReferences (redirect names))
  pure (⟨schemas, names⟩, taken)

/-- The listed schemas, each of which has to be there. A key that is listed again counts once. -/
def select (schema? : String → Option Schema) : List String → Except Error (List (String × Schema))
  | [] => .ok []
  | key :: rest =>
    match schema? key with
    | none => .error (.missingSchema key)
    | some schema => do pure ((key, schema) :: (← select schema? rest))

def get? (table : SchemaTable) (name : String) : Option Schema :=
  Entries.get? table.schemas name

/-- The name that a key of the document was given. -/
def nameOf? (table : SchemaTable) (key : String) : Option String :=
  Entries.get? table.names key

/-- The name of the schema that a pointer designates: the last segment as a name of the table, or
else as a key of the document. -/
def resolvePointer (table : SchemaTable) (pointer : String) : Option String :=
  match Document.Pointer.target pointer with
  | none => none
  | some target =>
    if table.schemas.contains target then some target else table.nameOf? target

end SchemaTable
end SchemaTypes
