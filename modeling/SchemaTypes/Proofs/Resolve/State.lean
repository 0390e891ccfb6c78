import SchemaTypes.Proofs.Resolve.Computation
import SchemaTypes.Proofs.Resolve.EnumTable
import Mathlib.Logic.Relation

/-!
# States of a pass

Resolution moves the state in single steps: a reference is recorded, or an enum is requested. What a
step keeps, any number of steps keeps.
-/
namespace SchemaTypes

open Data Naming Resolve

namespace ResolveState

/-- The state with a name among the referenced ones. -/
def refer (s : ResolveState) (name : String) : ResolveState :=
  { s with referenced := s.referenced.insert name }

/-- The state after a request for an enum, whose name becomes a referenced one. -/
def request (s : ResolveState) (typeName : String) (values : List String) : ResolveState :=
  let (name, enums, taken) := s.enums.synthesize s.taken typeName values
  { enums, taken, referenced := s.referenced.insert name }

/-- A step of a resolution over the table. -/
inductive Step (table : SchemaTable) : ResolveState → ResolveState → Prop
  | refer (s : ResolveState) {pointer name : String} :
    table.resolvePointer pointer = some name → Step table s (s.refer name)
  | request (s : ResolveState) (typeName : String) (values : List String) :
    Step table s (s.request typeName values)

/-- Any number of steps. -/
abbrev Steps (table : SchemaTable) : ResolveState → ResolveState → Prop :=
  Relation.ReflTransGen (Step table)

/-! ### What steps keep -/

/-- The enums fit the names in use. -/
def Sound (s : ResolveState) : Prop :=
  s.enums.Sound s.taken

/-- Nothing is taken away. Enums are added at the end, under names that were free or that their
schemas own. -/
structure Grows (owned : List String) (before after : ResolveState) : Prop where
  enums : ∃ new, after.enums.enums = before.enums.enums ++ new ∧
    ∀ e ∈ new, e.1 ∉ before.taken.taken ∨ e.1 ∈ owned
  taken : ∀ name ∈ before.taken.taken, name ∈ after.taken.taken
  referenced : ∀ name ∈ before.referenced, name ∈ after.referenced

variable {owned ownedLater : List String} {name : String}

theorem Grows.refl (s : ResolveState) : Grows [] s s :=
  ⟨⟨[], by simp⟩, fun _ => id, fun _ => id⟩

theorem Grows.trans {a b c : ResolveState} (first : Grows owned a b)
    (second : Grows ownedLater b c) : Grows (owned ++ ownedLater) a c := by
  obtain ⟨new, appended, free⟩ := first.enums
  obtain ⟨newer, appendedLater, freeLater⟩ := second.enums
  refine ⟨⟨new ++ newer, ?_, fun e member => ?_⟩,
    fun name used => second.taken name (first.taken name used),
    fun name met => second.referenced name (first.referenced name met)⟩
  · rw [appendedLater, appended, List.append_assoc]
  · rw [List.mem_append]
    rcases List.mem_append.mp member with old | later
    · exact (free e old).imp_right Or.inl
    · exact (freeLater e later).imp (mt (first.taken e.1)) Or.inr

variable {table : SchemaTable} {before after : ResolveState}

theorem Grows.names (grows : Grows owned before after) (declared : name ∈ before.enums.names) :
    name ∈ after.enums.names := by
  obtain ⟨new, appended, -⟩ := grows.enums
  rw [EnumTable.names, appended, Entries.keys_append]
  exact List.mem_append_left _ declared

/-- An enum that was not there has a name that was free, or one that is owned. -/
theorem Grows.of_mem_names (grows : Grows owned before after)
    (declared : name ∈ after.enums.names) :
    name ∈ before.enums.names ∨ name ∉ before.taken.taken ∨ name ∈ owned := by
  obtain ⟨new, appended, free⟩ := grows.enums
  rw [EnumTable.names, appended, Entries.keys_append] at declared
  rcases List.mem_append.mp declared with old | later
  · exact Or.inl old
  · obtain ⟨value, member⟩ := Entries.mem_keys.mp later
    exact Or.inr (free _ member)

theorem Step.sound (step : Step table before after) (sound : before.Sound) : after.Sound := by
  cases step with
  | refer => exact sound
  | request typeName values => exact EnumTable.synthesize_sound sound typeName values

theorem Step.grows (step : Step table before after) (sound : before.Sound) :
    Grows [] before after := by
  cases step with
  | refer _ =>
    exact ⟨⟨[], by simp [ResolveState.refer]⟩, fun _ => id,
      fun _ met => NameSet.mem_insert.mpr (Or.inr met)⟩
  | request typeName values =>
    have referenced : ∀ name ∈ before.referenced,
        name ∈ (before.request typeName values).referenced :=
      fun _ met => NameSet.mem_insert.mpr (Or.inr met)
    cases found : Entries.get? before.enums.aliases typeName with
    | some name =>
      refine ⟨⟨[], ?_⟩, ?_, referenced⟩ <;>
        simp [ResolveState.request, EnumTable.synthesize_known found]
    | none =>
      -- The claimed name was free, which is all that is known of it.
      have answer : before.enums.synthesize before.taken typeName values = _ :=
        EnumTable.synthesize_new sound found
      let name := before.taken.freeName typeName
      have free : name ∉ before.taken.taken := NameTable.freeName_not_mem
      refine ⟨⟨[(name, .ofLiterals name values none)], ?_, by simpa using free⟩, ?_, referenced⟩
      · simp only [ResolveState.request, answer, name]
      · simp only [ResolveState.request, answer]
        exact fun _ => NameTable.mem_claim_of_mem typeName

theorem Steps.sound (steps : Steps table before after) (sound : before.Sound) : after.Sound := by
  induction steps with
  | refl => exact sound
  | tail _ step ih => exact step.sound ih

theorem Steps.grows (steps : Steps table before after) (sound : before.Sound) :
    Grows [] before after := by
  induction steps with
  | refl => exact Grows.refl _
  | tail first step ih => exact ih.trans (step.grows (Steps.sound first sound))

/-- An enum of the schema's own, under a name that is in use. -/
theorem declareOwned_grows (s : ResolveState) (name : String) (values : List String)
    (description : Option String) :
    Grows [name] s { s with enums := s.enums.declareOwned name values description } := by
  by_cases known : name ∈ s.enums.names
  · rw [EnumTable.declareOwned_known known]
    exact ⟨⟨[], by simp⟩, fun _ => id, fun _ => id⟩
  · rw [EnumTable.declareOwned_new known]
    exact ⟨⟨[(name, .ofLiterals name values description)], rfl, by simp⟩, fun _ => id, fun _ => id⟩

end ResolveState

/-! ### Requests -/

namespace Scope

/-- Literals with a text among them are a request. -/
theorem runFrom_resolveEnum (scope : Scope) (literals : List Json) (nullable : Bool)
    (typeName : String) (before : ResolveState) :
    runFrom (scope.resolveEnum literals nullable typeName) before =
      match scope.enumLiterals literals with
      | .error e => (.error e, before)
      | .ok ([], null) => (.ok (.scalar .string (nullable || null)), before)
      | .ok (values, null) =>
        (.ok (.reference (before.enums.synthesize before.taken typeName values).1
            (nullable || null)), before.request typeName values) := by
  rw [resolveEnum, runFrom_bind, runFrom_lift]
  rcases scope.enumLiterals literals with e | ⟨_ | ⟨v, vs⟩, null⟩ <;> rfl

end Scope
end SchemaTypes
