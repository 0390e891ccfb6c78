import SchemaTypes.Proofs.Document.Descendants
import Mathlib.Data.List.Forall2

/-!
# Rewritten schemas

A rewritten schema has the nodes of the first one, in the same places and with the same parts. Only
the references that stand in them may be others.
-/
namespace SchemaTypes.Schema

/-- Where the nodes right below a node stand: the keys of its properties, whether it has items, and
the lengths of its lists. -/
structure Layout where
  properties : Option (List String)
  items : Bool
  allOf : Nat
  oneOf : Nat
  anyOf : Nat

def layout (s : Schema) : Layout where
  properties := s.properties.map (List.map Prod.fst)
  items := s.items.isSome
  allOf := s.allOf.length
  oneOf := s.oneOf.length
  anyOf := s.anyOf.length

/-- The second schema is the first one with other references. Each reference is related to the one
in its place, and all else is the same in every node. -/
inductive Rewrites (related : String → String → Prop) : Schema → Schema → Prop
  | node {s t : Schema} : { t.facets with reference := none } = { s.facets with reference := none } →
    Option.Rel related s.facets.reference t.facets.reference → t.layout = s.layout →
    List.Forall₂ (Rewrites related) s.children t.children → Rewrites related s t

variable {related : String → String → Prop} {g : String → String}

/-! ### Parts -/

theorem facets_mapReferences (g : String → String) (s : Schema) :
    (s.mapReferences g).facets = { s.facets with reference := s.facets.reference.map g } := by
  rcases s with ⟨f, _ | ps, _ | i, allOf, oneOf, anyOf⟩ <;> rfl

theorem items_mapReferences (g : String → String) (s : Schema) :
    (s.mapReferences g).items = s.items.map (mapReferences g) := by
  rcases s with ⟨f, _ | ps, _ | i, allOf, oneOf, anyOf⟩ <;> rfl

theorem allOf_mapReferences (g : String → String) (s : Schema) :
    (s.mapReferences g).allOf = s.allOf.map (mapReferences g) := by
  rcases s with ⟨f, _ | ps, _ | i, allOf, oneOf, anyOf⟩ <;> exact mapListReferences_eq g allOf

theorem oneOf_mapReferences (g : String → String) (s : Schema) :
    (s.mapReferences g).oneOf = s.oneOf.map (mapReferences g) := by
  rcases s with ⟨f, _ | ps, _ | i, allOf, oneOf, anyOf⟩ <;> exact mapListReferences_eq g oneOf

theorem anyOf_mapReferences (g : String → String) (s : Schema) :
    (s.mapReferences g).anyOf = s.anyOf.map (mapReferences g) := by
  rcases s with ⟨f, _ | ps, _ | i, allOf, oneOf, anyOf⟩ <;> exact mapListReferences_eq g anyOf

@[simp] theorem isNullable_mapReferences (g : String → String) (s : Schema) :
    (s.mapReferences g).isNullable = s.isNullable := by
  rw [isNullable, facets_mapReferences]
  rfl

@[simp] theorem admitsNull_mapReferences (g : String → String) (s : Schema) :
    (s.mapReferences g).admitsNull = s.admitsNull := by
  rw [admitsNull, isNullable_mapReferences, facets_mapReferences]
  rfl

@[simp] theorem summary_mapReferences (g : String → String) (s : Schema) :
    (s.mapReferences g).summary = s.summary := by
  rw [summary, facets_mapReferences]
  rfl

@[simp] theorem declaredNullability_mapReferences (g : String → String) (s : Schema) :
    (s.mapReferences g).declaredNullability = s.declaredNullability := by
  rw [declaredNullability, isNullable_mapReferences, facets_mapReferences]
  rfl

@[simp] theorem required_mapReferences (g : String → String) (s : Schema) :
    (s.mapReferences g).facets.required = s.facets.required := by
  rw [facets_mapReferences]

theorem hasComposition_mapReferences (g : String → String) (s : Schema) :
    (s.mapReferences g).hasComposition = s.hasComposition := by
  simp [hasComposition, allOf_mapReferences, oneOf_mapReferences, anyOf_mapReferences]

theorem isBareReference_mapReferences (g : String → String) (s : Schema) :
    (s.mapReferences g).isBareReference = s.isBareReference := by
  simp [isBareReference, facets_mapReferences, properties_mapReferences]

/-! ### The whole schema -/

/-- Every pointer is replaced in its place. -/
theorem references_mapReferences (g : String → String) (s : Schema) :
    (s.mapReferences g).references = s.references.map g := by
  induction s using Schema.induction with
  | step s ih =>
    have below : s.children.flatMap (fun c => (c.mapReferences g).references) =
        s.children.flatMap fun c => c.references.map g :=
      List.flatMap_congr ih
    rw [references_eq, references_eq, facets_mapReferences, children_mapReferences,
      List.flatMap_map, below, List.map_append, List.map_flatMap]
    cases s.facets.reference <;> rfl

theorem layout_mapReferences (g : String → String) (s : Schema) :
    (s.mapReferences g).layout = s.layout := by
  have keys : (s.mapReferences g).properties.map (List.map Prod.fst) =
      s.properties.map (List.map Prod.fst) := by
    rw [properties_mapReferences]
    cases s.properties <;> simp
  simp [layout, keys, items_mapReferences, allOf_mapReferences, oneOf_mapReferences,
    anyOf_mapReferences]

/-- Replacing references rewrites a schema. -/
theorem rewrites_mapReferences (replaced : ∀ pointer, related pointer (g pointer)) (s : Schema) :
    s.Rewrites related (s.mapReferences g) := by
  induction s using Schema.induction with
  | step s ih =>
    refine .node ?_ ?_ (layout_mapReferences g s) ?_
    · rw [facets_mapReferences]
    · rw [facets_mapReferences]
      cases s.facets.reference with
      | none => exact .none
      | some pointer => exact .some (replaced pointer)
    · rw [children_mapReferences, List.forall₂_map_right_iff, List.forall₂_same]
      exact ih

end SchemaTypes.Schema
