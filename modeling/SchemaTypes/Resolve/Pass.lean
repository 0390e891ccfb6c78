import SchemaTypes.Document.Basic
import SchemaTypes.Resolve.Declare
import SchemaTypes.Resolve.Prune

/-!
# Passes

One pass over a document declares each of its component schemas once. A pass can start from what an
earlier one declared: that is kept as it is, comes first, and is not declared again.
-/
namespace SchemaTypes

open Data Naming

/-- A pass over a table of schemas: `taken` are the names in use before it, `seed` is what an
earlier pass declared, and `retained` are the names that pruning keeps. -/
structure Pass where
  table : SchemaTable
  taken : NameTable
  reserved : ReservedWords := {}
  seed : Option DeclarationSet := none
  retained : NameSet := .empty
  prune : Bool := false
deriving Inhabited

namespace Pass

/-- A pass over the listed schemas. -/
def ofSource (keys : List String) (schema? : String → Option Schema) : Except Error Pass := do
  let entries ← SchemaTable.select schema? keys
  let (table, taken) ← SchemaTable.ofEntries (Entries.ofList entries) {}
  pure { table, taken }

/-- A pass over the component schemas of a document. -/
def ofDocument (d : Document) : Except Error Pass :=
  ofSource (Entries.keys d.schemas) (Entries.get? d.schemas)

/-- Names that pruning keeps; keys of the document stand for their names. -/
def retain (pass : Pass) (names : List String) : Pass :=
  { pass with
    retained := pass.retained.insertMany
      (names.map fun name => (pass.table.nameOf? name).getD name) }

/-- Starts from an earlier pass. Its names are taken, and the pass prunes with them as roots. -/
def seedWith (pass : Pass) (seed : DeclarationSet) : Pass :=
  { pass with
    taken := seed.declaredNames.toList.foldl NameTable.reserve pass.taken
    seed := some seed }

def scope (pass : Pass) (name : String) : Scope :=
  ⟨pass.table, pass.reserved, name⟩

/-- Declares the schemas in order, except those with a name that is declared. -/
def declareAll (pass : Pass) (declared : NameSet) :
    List (String × Schema) → Resolve (List (String × Outcome))
  | [] => pure []
  | (name, schema) :: rest =>
    if declared.contains name then declareAll pass declared rest
    else do
      let outcome ← (pass.scope name).declare schema
      let outcomes ← declareAll pass declared rest
      pure ((name, outcome) :: outcomes)

/-- The declaration that is left of an outcome once all references are known. -/
def finish (referenced : NameSet) : String × Outcome → Option Declaration
  | (_, .declared declaration) => some declaration
  | (_, .enum) => none
  | (name, .vacuous description) =>
    if referenced.contains name then some (.any name false description) else none

/-- Runs the pass; the first error ends it. -/
def run (pass : Pass) : Except Error DeclarationSet :=
  let seed := pass.seed.getD .empty
  let declared := seed.declaredNames
  let (enums, taken) := EnumTable.seeded seed.enums pass.taken
  match (pass.declareAll declared pass.table.schemas).run.run ⟨enums, taken, seed.referenced⟩ with
  | (.error e, _) => .error e
  | (.ok outcomes, state) =>
    let set : DeclarationSet :=
      ⟨seed.declarations ++ outcomes.filterMap (finish state.referenced),
        state.enums.declarations, state.referenced⟩
    if pass.prune || pass.seed.isSome then
      .ok (set.prune (pass.retained.insertMany declared.toList)).1
    else .ok set

end Pass
end SchemaTypes
