import SchemaTypes.Proofs.Types.References
import SchemaTypes.Resolve.Resolver
import Mathlib.Data.List.Nodup

/-!
# Merging without repetition

Merged members and alternatives come from the lists that were merged.
-/
namespace SchemaTypes

theorem mem_pushMember {members : List Member} {m new : Member}
    (pushed : m ∈ pushMember members new) : m ∈ members ∨ m = new := by
  unfold pushMember at pushed
  split at pushed
  · exact Or.inl pushed
  · simpa using pushed

theorem mem_pushMembers {members new : List Member} {m : Member}
    (pushed : m ∈ pushMembers members new) : m ∈ members ∨ m ∈ new := by
  induction new generalizing members with
  | nil => exact Or.inl pushed
  | cons n rest ih =>
    rcases ih pushed with earlier | later
    · rcases mem_pushMember earlier with old | rfl
      · exact Or.inl old
      · exact Or.inr List.mem_cons_self
    · exact Or.inr (List.mem_cons_of_mem _ later)

theorem mem_pushType {types : List TypeExpr} {t new : TypeExpr} (pushed : t ∈ pushType types new) :
    t ∈ types ∨ t = new := by
  unfold pushType at pushed
  split at pushed
  · exact Or.inl pushed
  · simpa using pushed

/-- Merged members refer to what the merged lists refer to. -/
theorem listReferences_pushMembers_subset (members new : List Member) :
    Member.listReferences (pushMembers members new) ⊆
      Member.listReferences members ++ Member.listReferences new := by
  intro name member
  obtain ⟨m, pushed, inside⟩ := Member.mem_listReferences.mp member
  rcases mem_pushMembers pushed with old | added
  · exact List.mem_append_left _ (Member.mem_listReferences.mpr ⟨m, old, inside⟩)
  · exact List.mem_append_right _ (Member.mem_listReferences.mpr ⟨m, added, inside⟩)

theorem listReferences_pushType_subset (types : List TypeExpr) (t : TypeExpr) :
    TypeExpr.listReferences (pushType types t) ⊆ TypeExpr.listReferences types ++ t.references := by
  intro name member
  obtain ⟨u, pushed, inside⟩ := TypeExpr.mem_listReferences.mp member
  rcases mem_pushType pushed with old | rfl
  · exact List.mem_append_left _ (TypeExpr.mem_listReferences.mpr ⟨u, old, inside⟩)
  · exact List.mem_append_right _ inside

/-! ### Distinct names -/

/-- No two fields have the same name, and no two inclusions. -/
structure DistinctMembers (members : List Member) : Prop where
  fields : (members.filterMap Member.fieldName).Nodup
  inclusions : (members.filterMap Member.inclusionName).Nodup

theorem DistinctMembers.nil : DistinctMembers [] :=
  ⟨List.nodup_nil, List.nodup_nil⟩

theorem DistinctMembers.pushMember {members : List Member} (distinct : DistinctMembers members)
    (new : Member) : DistinctMembers (pushMember members new) := by
  unfold SchemaTypes.pushMember
  split
  · exact distinct
  next fresh =>
    cases new with
    | field name key type required description =>
      have absent : name ∉ members.filterMap Member.fieldName := by
        intro member
        obtain ⟨m, listed, named⟩ := List.mem_filterMap.mp member
        exact fresh (List.any_eq_true.mpr ⟨m, listed, by simp [named]⟩)
      constructor <;> rw [List.filterMap_append]
      · exact List.concat_eq_append ▸ distinct.fields.concat absent
      · exact (List.append_nil _).symm ▸ distinct.inclusions
    | inclusion name =>
      have absent : name ∉ members.filterMap Member.inclusionName := by
        intro member
        obtain ⟨m, listed, named⟩ := List.mem_filterMap.mp member
        cases m with
        | field => cases named
        | inclusion other =>
          cases named
          exact fresh (List.contains_iff_mem.mpr listed)
      constructor <;> rw [List.filterMap_append]
      · exact (List.append_nil _).symm ▸ distinct.fields
      · exact List.concat_eq_append ▸ distinct.inclusions.concat absent

/-- Merging keeps names distinct, whatever is merged in. -/
theorem DistinctMembers.pushMembers {members : List Member} (distinct : DistinctMembers members)
    (new : List Member) : DistinctMembers (pushMembers members new) := by
  induction new generalizing members with
  | nil => exact distinct
  | cons m rest ih => exact ih (distinct.pushMember m)

end SchemaTypes
