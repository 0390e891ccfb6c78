import SchemaTypes.Proofs.Data.Entries
import SchemaTypes.Proofs.Resolve.Search

/-!
# The inclusion graph

The edges of the graph are read off the schema nodes, apart from their declaration. The search for a
way back finds one exactly if there is one.
-/
namespace SchemaTypes.SchemaTable

open Data

variable {table : SchemaTable} {s : Schema} {target : String}

theorem mem_memberInclusions :
    target ∈ table.memberInclusions s ↔
      (s.properties = none ∧ s.facets.reference.bind table.resolvePointer = some target) ∨
        target ∈ table.membersInclusions s.allOf := by
  rcases s with ⟨f, _ | ps, items, allOf, oneOf, anyOf⟩ <;>
    simp [memberInclusions, Schema.properties, Schema.facets, Schema.allOf]

theorem mem_inclusionsOf :
    target ∈ table.inclusionsOf s ↔
      (s.hasComposition = false ∧ s.isBareReference = true ∧
        s.facets.reference.bind table.resolvePointer = some target) ∨
      target ∈ table.membersInclusions s.allOf := by
  rw [inclusionsOf, List.mem_append]
  split <;> simp_all

theorem inclusionEdges_support {name : String} (edges : table.inclusionEdges name ≠ []) :
    name ∈ Entries.keys table.schemas := by
  unfold inclusionEdges at edges
  split at edges
  next found => exact Entries.mem_keys.mpr ⟨_, Entries.mem_of_get? found⟩
  · exact absurd rfl edges

/-- Where no path back is found, there is none. -/
theorem not_reaches_of_inclusionPath? {start goal : String}
    (nothing : table.inclusionPath? start goal = none) :
    ¬ Reaches table.inclusionEdges start goal :=
  not_reaches_of_searchPath (fun _ => inclusionEdges_support) (by simp [Entries.keys]) nothing

/-- The search misses no path. -/
theorem inclusionPath?_eq_none_iff {start goal : String} :
    table.inclusionPath? start goal = none ↔ ¬ Reaches table.inclusionEdges start goal := by
  refine ⟨not_reaches_of_inclusionPath?, fun noPath => ?_⟩
  cases found : table.inclusionPath? start goal with
  | none => rfl
  | some path => exact absurd (isPath_of_searchPath found).reaches noPath

end SchemaTypes.SchemaTable
