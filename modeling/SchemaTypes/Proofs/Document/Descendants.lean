import SchemaTypes.Proofs.Document.Children
import Mathlib.Logic.Relation

/-!
# Nodes of a schema

The nodes of a schema are the schema itself and everything below it. Its references are what stands
in its nodes, and replacing references changes nothing else.
-/
namespace SchemaTypes.Schema

variable {s c : Schema} {pointer : String} {g : String → String}

/-- The second node is the first one or stands below it. -/
abbrev Contains : Schema → Schema → Prop :=
  Relation.ReflTransGen fun s c => c ∈ s.children

/-- Something holds of all nodes exactly if it holds of the schema and of all nodes of its
children. -/
theorem forall_contains_iff {P : Schema → Prop} :
    (∀ c, s.Contains c → P c) ↔ P s ∧ ∀ child ∈ s.children, ∀ c, child.Contains c → P c := by
  constructor
  · exact fun each => ⟨each s .refl, fun child member c below => each c (below.head member)⟩
  · rintro ⟨own, below⟩ c contained
    rcases contained.cases_head with rfl | ⟨child, member, rest⟩
    · exact own
    · exact below child member c rest

/-! ### References -/

theorem listReferences_eq (ss : List Schema) : listReferences ss = ss.flatMap references := by
  induction ss with
  | nil => rfl
  | cons s rest ih => rw [listReferences, List.flatMap_cons, ih]

theorem propertyReferences_eq (ps : List (String × Schema)) :
    propertyReferences ps = (ps.map Prod.snd).flatMap references := by
  induction ps with
  | nil => rfl
  | cons p rest ih => rw [propertyReferences, List.map_cons, List.flatMap_cons, ih]

/-- A node's own reference comes before those of its children. -/
theorem references_eq (s : Schema) :
    s.references = s.facets.reference.toList ++ s.children.flatMap references := by
  rcases s with ⟨f, _ | ps, _ | i, allOf, oneOf, anyOf⟩ <;>
    simp [references, children, facets, properties, items, Schema.allOf, Schema.oneOf, Schema.anyOf,
      listReferences_eq, propertyReferences_eq]

/-- The references of a schema are those that stand in its nodes. -/
theorem mem_references_iff :
    pointer ∈ s.references ↔ ∃ c, s.Contains c ∧ c.facets.reference = some pointer := by
  induction s using Schema.induction with
  | step s ih =>
    rw [references_eq, List.mem_append, Option.mem_toList, List.mem_flatMap]
    constructor
    · rintro (own | ⟨child, member, inside⟩)
      · exact ⟨s, .refl, own⟩
      · obtain ⟨c, below, found⟩ := (ih child member).mp inside
        exact ⟨c, below.head member, found⟩
    · rintro ⟨c, contained, found⟩
      rcases contained.cases_head with rfl | ⟨child, member, below⟩
      · exact Or.inl found
      · exact Or.inr ⟨child, member, (ih child member).mpr ⟨c, below, found⟩⟩

theorem mem_references_of_own (own : s.facets.reference = some pointer) :
    pointer ∈ s.references :=
  mem_references_iff.mpr ⟨s, .refl, own⟩

theorem mem_references_of_child (child : c ∈ s.children) (inside : pointer ∈ c.references) :
    pointer ∈ s.references := by
  rw [references_eq]
  exact List.mem_append_right _ (List.mem_flatMap.mpr ⟨c, child, inside⟩)

/-! ### Replaced references -/

theorem mapListReferences_eq (g : String → String) (ss : List Schema) :
    mapListReferences g ss = ss.map (mapReferences g) := by
  induction ss with
  | nil => rfl
  | cons s rest ih => rw [mapListReferences, List.map_cons, ih]

theorem mapPropertyReferences_eq (g : String → String) (ps : List (String × Schema)) :
    mapPropertyReferences g ps = ps.map fun p => (p.1, p.2.mapReferences g) := by
  induction ps with
  | nil => rfl
  | cons p rest ih => rw [mapPropertyReferences, List.map_cons, ih]

theorem properties_mapReferences (g : String → String) (s : Schema) :
    (s.mapReferences g).properties =
      s.properties.map (List.map fun p => (p.1, p.2.mapReferences g)) := by
  rcases s with ⟨f, _ | ps, _ | i, allOf, oneOf, anyOf⟩ <;>
    simp [mapReferences, properties, mapPropertyReferences_eq]

theorem children_mapReferences (g : String → String) (s : Schema) :
    (s.mapReferences g).children = s.children.map (mapReferences g) := by
  rcases s with ⟨f, _ | ps, _ | i, allOf, oneOf, anyOf⟩ <;>
    simp [mapReferences, children, properties, items, Schema.allOf, Schema.oneOf, Schema.anyOf,
      mapListReferences_eq, mapPropertyReferences_eq]

theorem Contains.of_mapReferences (contained : (s.mapReferences g).Contains c) :
    ∃ node, s.Contains node ∧ c = node.mapReferences g := by
  induction contained with
  | refl => exact ⟨s, .refl, rfl⟩
  | tail _ child ih =>
    obtain ⟨node, inside, rfl⟩ := ih
    rw [children_mapReferences] at child
    obtain ⟨below, member, rfl⟩ := List.mem_map.mp child
    exact ⟨below, inside.tail member, rfl⟩

end SchemaTypes.Schema
