import SchemaTypes.Data.Entries
import SchemaTypes.Naming.Identifier
import SchemaTypes.Naming.NameTable
import SchemaTypes.Text.Upper
import SchemaTypes.Types.Declaration

/-!
# Enum tables

String enums, at most one for each name that is asked for. What was declared stays as it is.
-/
namespace SchemaTypes

open Data Naming

/-- The identifier of a literal: `PetTag` and `in-progress` give `PETTAG_INPROGRESS`. -/
def EnumMember.identifierOf (enumName value : String) : String :=
  Text.upper enumName ++ "_" ++ Text.upper (normalize value false)

def EnumDeclaration.ofLiterals (name : String) (values : List String)
    (description : Option String) : EnumDeclaration :=
  ⟨name, values.map fun v => ⟨EnumMember.identifierOf name v, v⟩, description⟩

/-- The enums by name, in the order of their creation, and the name of the enum that was made for
each name asked for. -/
structure EnumTable where
  enums : Entries EnumDeclaration := []
  aliases : Entries String := []
deriving Inhabited

namespace EnumTable

def get? (table : EnumTable) (name : String) : Option EnumDeclaration :=
  Entries.get? table.enums name

def declarations (table : EnumTable) : List EnumDeclaration :=
  table.enums.map Prod.snd

def seedStep (state : EnumTable × NameTable) (e : EnumDeclaration) : EnumTable × NameTable :=
  (⟨Entries.insert e.name e state.1.enums, Entries.insert e.name e.name state.1.aliases⟩,
    state.2.reserve e.name)

/-- The table of the given enums, whose names become taken. -/
def seeded (enums : List EnumDeclaration) (taken : NameTable) : EnumTable × NameTable :=
  enums.foldl seedStep ({}, taken)

/-- The name of the enum for a request. The first request for a name declares the enum, under a free
variant of the name; later ones find it, whatever their literals. -/
def synthesize (table : EnumTable) (taken : NameTable) (request : String) (values : List String) :
    String × EnumTable × NameTable :=
  match Entries.get? table.aliases request with
  | some name => (name, table, taken)
  | none =>
    let (name, taken) := taken.claim request
    (name,
      ⟨Entries.insert name (.ofLiterals name values none) table.enums,
        Entries.insert request name table.aliases⟩,
      taken)

/-- Declares an enum under a name that its schema holds already. Requests for the name do not find
it. -/
def declareOwned (table : EnumTable) (name : String) (values : List String)
    (description : Option String) : EnumTable :=
  if (table.get? name).isSome then table
  else { table with enums := Entries.insert name (.ofLiterals name values description) table.enums }

end EnumTable
end SchemaTypes
