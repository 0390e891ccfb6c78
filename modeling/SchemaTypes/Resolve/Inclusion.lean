import SchemaTypes.Resolve.SchemaTable

/-!
# Inclusion

Which schemas the record of a schema includes, and the search for a way back along inclusions.
-/
namespace SchemaTypes

/-! ### Search -/

/-- Tries the nodes in order until the search from one of them finds something. `search` is given
the nodes visited so far and returns them with those it visits. -/
def searchEach {α : Type} (search : List String → String → Option α × List String) :
    List String → List String → Option α × List String
  | visited, [] => (none, visited)
  | visited, node :: rest =>
    match search visited node with
    | (some found, visited) => (some found, visited)
    | (none, visited) => searchEach search visited rest

/-- Depth-first search for a path to `goal`, without a second visit to any node. -/
def searchPath (edges : String → List String) (goal : String) :
    (fuel : Nat) → (visited : List String) → (node : String) → Option (List String) × List String
  | 0, visited, _ => (none, visited)
  | fuel + 1, visited, node =>
    if node = goal then (some [node], visited)
    else if node ∈ visited then (none, visited)
    else
      match searchEach (searchPath edges goal fuel) (node :: visited) (edges node) with
      | (some path, visited) => (some (node :: path), visited)
      | (none, visited) => (none, visited)

namespace SchemaTable

mutual

/-- The schemas that a member of `allOf` includes: its own reference, unless it has properties, and
those of the members below it. -/
def memberInclusions (table : SchemaTable) : Schema → List String
  | .node f properties _ allOf _ _ =>
    (match properties with
      | some _ => []
      | none => (f.reference.bind table.resolvePointer).toList) ++
      table.membersInclusions allOf
termination_by structural s => s

def membersInclusions (table : SchemaTable) : List Schema → List String
  | [] => []
  | s :: rest => table.memberInclusions s ++ table.membersInclusions rest
termination_by structural ss => ss

end

/-- The schemas that the record of a schema includes. -/
def inclusionsOf (table : SchemaTable) (s : Schema) : List String :=
  (if !s.hasComposition && s.isBareReference then
    (s.facets.reference.bind table.resolvePointer).toList
  else []) ++ table.membersInclusions s.allOf

/-- The edges of the inclusion graph. Only names of the table have any. -/
def inclusionEdges (table : SchemaTable) (name : String) : List String :=
  match table.get? name with
  | some s => table.inclusionsOf s
  | none => []

/-- A path along inclusions. Each step but the last one is a new name of the table, so the number of
names bounds the length. -/
def inclusionPath? (table : SchemaTable) (start goal : String) : Option (List String) :=
  (searchPath table.inclusionEdges goal (table.schemas.length + 2) [] start).1

end SchemaTable
end SchemaTypes
