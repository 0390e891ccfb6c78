import SchemaTypes.Proofs.Resolve.Computation
import SchemaTypes.Proofs.Resolve.Shape
import Mathlib.Data.List.Induction
import Mathlib.Data.List.Nodup

/-!
# Alternatives of a union

The alternatives of a node are resolved in order, each under a name with its number in the list, and
a type is left out if it is among the earlier ones. So the members of the union are the first
occurrences of the types, and a repeat does not change the numbers of the alternatives after it.
-/
namespace SchemaTypes

open Naming Resolve

/-! ### Nodes with alternatives -/

namespace Schema

variable {s : Schema} {type : Option NodeType} {ss : List Schema}

/-- What the node lists in `oneOf`, or in `anyOf` if there is no `oneOf`. -/
def alternatives (s : Schema) : List Schema :=
  if s.oneOf.isEmpty then s.anyOf else s.oneOf

theorem alternatives_ne_nil_iff : s.alternatives ≠ [] ↔ s.oneOf ≠ [] ∨ s.anyOf ≠ [] := by
  unfold alternatives
  cases s.oneOf <;> simp

theorem ofType_ne_union : Shape.ofType s type ≠ .union ss := by
  intro found
  have settled := isOfType_ofType s type
  rw [found] at settled
  cases settled

/-- A node is a union of its alternatives if it has some, unless it has `allOf` too. -/
theorem shape_eq_union_iff :
    s.shape type = .union ss ↔ s.allOf = [] ∧ ss = s.alternatives ∧ ss ≠ [] := by
  unfold shape alternatives
  cases s.allOf with
  | cons => simp
  | nil =>
    cases s.oneOf with
    | cons => simp +contextual [eq_comm]
    | nil =>
      cases s.anyOf with
      | cons => simp +contextual [eq_comm]
      | nil => cases s.properties <;> simp +contextual [ofType_ne_union]

end Schema

/-! ### First occurrences -/

section FirstOccurrences

variable {types : List TypeExpr}

theorem pushType_eraseDups (types : List TypeExpr) (t : TypeExpr) :
    pushType types.eraseDups t = (types ++ [t]).eraseDups := by
  rw [List.eraseDups_append, pushType]
  by_cases known : t ∈ types
  · rw [if_pos (List.mem_eraseDups.mpr known)]
    simp [List.removeAll, known]
  · rw [if_neg (mt List.mem_eraseDups.mp known)]
    simp [List.removeAll, known, List.eraseDups_cons]

theorem nodup_pushType (distinct : types.Nodup) (t : TypeExpr) : (pushType types t).Nodup := by
  unfold pushType
  split
  · exact distinct
  next new => exact List.nodup_append.mpr ⟨distinct, List.nodup_singleton t, by grind⟩

theorem nodup_eraseDups (types : List TypeExpr) : types.eraseDups.Nodup := by
  -- The types are pushed from the front, so the induction adds them at the end.
  induction types using List.reverseRecOn with
  | nil => exact List.nodup_nil
  | append_singleton types t ih =>
    rw [← pushType_eraseDups]
    exact nodup_pushType ih t

end FirstOccurrences

/-! ### Resolution -/

namespace Scope

variable {scope : Scope} {s : Schema} {t : TypeExpr} {typeName : String} {number : Nat}
  {ss : List Schema} {types members result : List TypeExpr} {before after : ResolveState}

/-- The nodes resolve to the types, one after the other, under names with the numbers from `number`
on. -/
inductive ResolvesEach (scope : Scope) (typeName : String) :
    List Schema → (number : Nat) → ResolveState → List TypeExpr → ResolveState → Prop
  | nil (number : Nat) (s : ResolveState) : ResolvesEach scope typeName [] number s [] s
  | cons {s : Schema} {rest : List Schema} {number : Nat} {t : TypeExpr} {types : List TypeExpr}
    {before mid after : ResolveState} :
    Returns (scope.resolve s (typeName ++ "Variant" ++ toString number)) before t mid →
    ResolvesEach scope typeName rest (number + 1) mid types after →
    ResolvesEach scope typeName (s :: rest) number before (t :: types) after

/-- The members are the first occurrences among the types that the nodes resolve to, which are
numbered from one. -/
structure UnionOf (scope : Scope) (typeName : String) (ss : List Schema) (before : ResolveState)
    (members : List TypeExpr) (after : ResolveState) : Prop where
  nonempty : members ≠ []
  distinct : members.Nodup
  firsts : ∃ types, scope.ResolvesEach typeName ss 1 before types after ∧
    members = types.eraseDups

/-- What is pushed comes after the first occurrences of what was there. -/
theorem resolveAlternatives_returns (earlier : List TypeExpr) :
    Returns (scope.resolveAlternatives ss typeName number earlier.eraseDups) before result after ↔
      ∃ later, scope.ResolvesEach typeName ss number before later after ∧
        result = (earlier ++ later).eraseDups := by
  induction ss generalizing number earlier before with
  | nil =>
    rw [resolveAlternatives_nil]
    constructor
    · rintro ⟨rfl, rfl⟩
      exact ⟨[], .nil number before, by rw [List.append_nil]⟩
    · rintro ⟨later, each, rfl⟩
      cases each
      exact ⟨by rw [List.append_nil], rfl⟩
  | cons s rest ih =>
    -- After the push, the earlier types and the new one have their first occurrences in the list.
    simp only [resolveAlternatives_cons, pushType_eraseDups, ih, List.append_assoc,
      List.singleton_append]
    constructor
    · rintro ⟨t, mid, first, later, each, rfl⟩
      exact ⟨t :: later, .cons first each, rfl⟩
    · rintro ⟨later, each, rfl⟩
      cases each with
      | cons first each => exact ⟨_, _, first, _, each, rfl⟩

theorem ResolvesEach.ne_nil (each : scope.ResolvesEach typeName ss number before types after)
    (given : ss ≠ []) : types ≠ [] := by
  cases each with
  | nil => exact absurd rfl given
  | cons => exact List.cons_ne_nil _ _

/-- Some alternatives make a union that has members, all of them distinct. -/
theorem unionOf_of_returns (given : ss ≠ [])
    (returned : Returns (scope.resolveAlternatives ss typeName 1 []) before members after) :
    scope.UnionOf typeName ss before members after := by
  obtain ⟨types, each, rfl⟩ := (resolveAlternatives_returns []).mp returned
  obtain ⟨t, resolved⟩ := List.exists_mem_of_ne_nil types (each.ne_nil given)
  exact ⟨List.ne_nil_of_mem (List.mem_eraseDups.mpr resolved), nodup_eraseDups types,
    types, each, rfl⟩

/-- A node with alternatives resolves to the union of them, unless it has `allOf`, which makes it a
record. -/
theorem resolve_of_alternatives (given : s.alternatives ≠ [])
    (returned : Returns (scope.resolve s typeName) before t after) :
    (s.allOf = [] ∧ ∃ members, t = .union members s.isNullable ∧
      scope.UnionOf typeName s.alternatives before members after) ∨
    (s.allOf ≠ [] ∧ ∃ ms, t = .record ms s.isNullable) := by
  rw [resolve_eq, returns_bind] at returned
  obtain ⟨type, mid, first, last⟩ := returned
  obtain ⟨-, rfl⟩ := returns_lift.mp first
  by_cases noAllOf : s.allOf = []
  · rw [Schema.shape_eq_union_iff.mpr ⟨noAllOf, rfl, given⟩] at last
    obtain ⟨members, mid, resolved, last⟩ := returns_bind.mp last
    obtain ⟨rfl, rfl⟩ := returns_pure.mp last
    exact Or.inl ⟨noAllOf, members, rfl, unionOf_of_returns given resolved⟩
  · rw [Schema.shape_of_allOf noAllOf] at last
    obtain ⟨ms, mid, -, last⟩ := returns_bind.mp last
    obtain ⟨rfl, -⟩ := returns_pure.mp last
    exact Or.inr ⟨noAllOf, ms, rfl⟩

end Scope
end SchemaTypes
