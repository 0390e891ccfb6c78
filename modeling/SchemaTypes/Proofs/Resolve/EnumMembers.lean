import SchemaTypes.Proofs.Resolve.LegalNames

/-!
# Members of an enum

Identifiers of members are not made distinct. Case, punctuation and letters beyond ASCII do not show
in them, so distinct literals may share one, and they do exactly if they have the same stem.
-/
namespace SchemaTypes

open Naming

theorem EnumDeclaration.identifiers_ofLiterals_nodup_iff (name : String) (values : List String)
    (description : Option String) :
    ((ofLiterals name values description).members.map EnumMember.identifier).Nodup ↔
      (values.map EnumMember.stem).Nodup := by
  simp only [ofLiterals, List.map_map, List.nodup_iff_pairwise_ne, List.pairwise_map,
    Function.comp_apply, ne_eq, EnumMember.identifierOf_inj]

namespace Request

variable {r : Request} {set : DeclarationSet} {e : EnumDeclaration}

/-- In an enum of a first pass, the members have distinct identifiers exactly if their literals have
distinct stems. -/
theorem member_identifiers_nodup_iff (finished : r.run none = .ok set) (declared : e ∈ set.enums) :
    (e.members.map EnumMember.identifier).Nodup ↔
      (e.members.map fun m => EnumMember.stem m.value).Nodup := by
  obtain ⟨-, values, made⟩ := isIdentifier_of_enum finished declared
  have literals : (e.members.map fun m => EnumMember.stem m.value) =
      values.map EnumMember.stem := by
    rw [made, EnumDeclaration.ofLiterals, List.map_map]
    rfl
  rw [literals, made]
  exact EnumDeclaration.identifiers_ofLiterals_nodup_iff e.name values e.description

end Request

/-! ### Sizes

The grades of a shoe are kept apart by their letters and digits. The sizes of a shirt differ in case
only. -/

namespace Sizes

open Zoo

def shoe : Request :=
  .ofDocument <| document [("Grade", Oddities.literals ["a+", "b-", "2nd", "on_sale"])]

def grade : EnumDeclaration where
  name := "Grade"
  members := [⟨"GRADE_A", "a+"⟩, ⟨"GRADE_B", "b-"⟩, ⟨"GRADE__2ND", "2nd"⟩,
    ⟨"GRADE_ON_SALE", "on_sale"⟩]
  description := none

theorem run_shoe : shoe.run none = .ok ⟨[], [grade], .empty⟩ :=
  eq_ok_of_toOption (by decide +kernel)

def shirt : Document :=
  document [("Size", Oddities.literals ["a", "A"])]

def size : EnumDeclaration :=
  ⟨"Size", [⟨"SIZE_A", "a"⟩, ⟨"SIZE_A", "A"⟩], none⟩

theorem run_shirt : (Request.ofDocument shirt).run none = .ok ⟨[], [size], .empty⟩ :=
  eq_ok_of_toOption (by decide +kernel)

end Sizes

theorem Request.grade_identifiers_nodup_iff :
    Sizes.shoe.run none = .ok ⟨[], [Sizes.grade], .empty⟩ ∧
      (["GRADE_A", "GRADE_B", "GRADE__2ND", "GRADE_ON_SALE"].Nodup ↔
        ["A", "B", "_2ND", "ON_SALE"].Nodup) := by
  have stems : (Sizes.grade.members.map fun m => EnumMember.stem m.value) =
      ["A", "B", "_2ND", "ON_SALE"] := by decide +kernel
  have distinct :=
    Request.member_identifiers_nodup_iff Sizes.run_shoe (List.mem_singleton.mpr rfl)
  exact ⟨Sizes.run_shoe, stems ▸ distinct⟩

/-- Two literals that differ in case have the same identifier. -/
theorem not_always_distinct_identifiers : ¬ ∀ (d : Document) (set : DeclarationSet)
    (e : EnumDeclaration), (Request.ofDocument d).run none = .ok set → e ∈ set.enums →
      (e.members.map EnumMember.value).Nodup → (e.members.map EnumMember.identifier).Nodup := by
  intro always
  have distinct := always _ _ _ Sizes.run_shirt (List.mem_singleton.mpr rfl) (by decide)
  exact absurd distinct (by decide)

end SchemaTypes
