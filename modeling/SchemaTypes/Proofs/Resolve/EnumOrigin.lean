import SchemaTypes.Proofs.Resolve.Reseeding

/-!
# Where enums come from

A first pass makes every enum for an effect of a schema: for a request, under a variant of the name
that is asked for, or for the schema itself, under the name of the schema. Its members are made from
the literals of that effect.
-/
namespace SchemaTypes

open Data Naming Resolve ResolveState

/-- The effect may add the enum. -/
inductive Effect.Makes : Effect → EnumDeclaration → Prop
  | request {q name : String} (values : List String) : NameTable.IsVariant q name →
    Makes (.request q values) (.ofLiterals name values none)
  | own (name : String) (values : List String) (description : Option String) :
    Makes (.own name values description) (.ofLiterals name values description)

namespace ResolveState

variable {s : ResolveState} {entry : String × EnumDeclaration}

theorem mem_enums_apply_cases (e : Effect) (declared : entry ∈ (e.apply s).enums.enums) :
    entry ∈ s.enums.enums ∨ e.Makes entry.2 := by
  cases e with
  | refer => exact Or.inl declared
  | request q values =>
    simp only [Effect.apply, request, EnumTable.synthesize] at declared
    split at declared
    · exact Or.inl declared
    · rcases Entries.mem_of_mem_insert declared with old | rfl
      · exact Or.inl old
      · exact Or.inr (.request values NameTable.isVariant_freeName)
  | own name values description =>
    simp only [Effect.apply, EnumTable.declareOwned] at declared
    split at declared
    · exact Or.inl declared
    · rcases Entries.mem_of_mem_insert declared with old | rfl
      · exact Or.inl old
      · exact Or.inr (.own name values description)

theorem mem_enums_perform_cases (es : List Effect)
    (declared : entry ∈ (s.perform es).enums.enums) :
    entry ∈ s.enums.enums ∨ ∃ e ∈ es, e.Makes entry.2 := by
  induction es generalizing s with
  | nil => exact Or.inl declared
  | cons e rest ih =>
    rcases ih declared with early | ⟨later, listed, made⟩
    · exact (mem_enums_apply_cases e early).imp_right fun made => ⟨e, List.mem_cons_self, made⟩
    · exact Or.inr ⟨later, List.mem_cons_of_mem _ listed, made⟩

end ResolveState

namespace Pass

variable {pass : Pass} {set : DeclarationSet} {d : EnumDeclaration}

/-- With nothing declared before, every enum is made for an effect of a schema. -/
theorem exists_effect_of_enum (first : pass.earlier = .empty) (finished : pass.run = .ok set)
    (declared : d ∈ set.enums) :
    ∃ name schema, (name, schema) ∈ pass.table.schemas ∧
      ∃ e, (pass.scope name).DeclarationCauses schema e ∧ e.Makes d := by
  obtain ⟨enums, outcomes, returned⟩ := returns_of_run finished
  obtain ⟨es, final, listed⟩ := exists_effects returned
  rw [enums, final] at declared
  obtain ⟨entry, member, rfl⟩ := List.mem_map.mp declared
  have empty : pass.start.enums.enums = [] := by
    rw [start, first]
    rfl
  -- The table starts empty, so an effect has made the entry.
  rcases mem_enums_perform_cases es member with early | ⟨e, effect, made⟩
  · rw [empty] at early
    cases early
  · obtain ⟨⟨name, schema⟩, owned, -, causes⟩ := (listed e).mp effect
    exact ⟨name, schema, owned, e, causes, made⟩

end Pass
end SchemaTypes
