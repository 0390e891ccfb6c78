import SchemaTypes.Proofs.Resolve.DocumentOrder
import SchemaTypes.Proofs.Resolve.Reseeding

/-!
# Enums of schemas and enums inside them

A string enum inside a schema asks for an enum by name. In one pass it never gets the enum of a
schema, whose name is taken. In a chain of passes it does exactly if the name that it asks for is
one under which an earlier pass declared the enum of a schema, since a seed answers with any enum of
the name.
-/
namespace SchemaTypes

open Data Naming Resolve ResolveState DeclarationSet

/-! ### Bindings -/

/-- A string enum refers to the answer that its request has from then on. -/
theorem Scope.reference_of_literals {scope : Scope} {s : Schema} {ls : List Json} {v : String}
    {vs : List String} {null : Bool} {q : String} {t : TypeExpr} {before after : ResolveState}
    (shaped : scope.HasShape s (.literals ls)) (read : scope.enumLiterals ls = .ok (v :: vs, null))
    (returned : Returns (scope.resolve s q) before t after) :
    ∃ n, after.enumFor? q = some n ∧ t = .reference n (s.isNullable || null) := by
  obtain ⟨type, named, shape⟩ := shaped
  rw [resolve_eq, returns_bind] at returned
  obtain ⟨other, mid, first, last⟩ := returned
  obtain ⟨same, rfl⟩ := returns_lift.mp first
  cases named.symm.trans same
  rw [shape, typeOfShape, Returns, runFrom_resolveEnum, read] at last
  cases last
  exact ⟨_, enumFor?_request before q (v :: vs), rfl⟩

namespace Pass

variable {pass : Pass} {set : DeclarationSet} {q n name : String}

/-- Every string enum that the pass resolves under the type name refers to the enum `n`. -/
structure Binds (pass : Pass) (q n : String) : Prop where
  answer : pass.enumFor? q = some n
  refers {schema : String} {s : Schema} {ls : List Json} {v : String} {vs : List String}
    {null : Bool} {t : TypeExpr} {before after : ResolveState} {later : List Effect} :
    (pass.scope schema).HasShape s (.literals ls) →
    (pass.scope schema).enumLiterals ls = .ok (v :: vs, null) →
    Returns ((pass.scope schema).resolve s q) before t after → pass.final = after.perform later →
    t = .reference n (s.isNullable || null)

theorem binds_of_enumFor? (answered : pass.enumFor? q = some n) : pass.Binds q n := by
  refine ⟨answered, fun {_ s _ _ _ null t _ after later} shaped read returned final => ?_⟩
  obtain ⟨m, given, rfl⟩ := Scope.reference_of_literals shaped read returned
  -- The answer stands until the pass ends.
  have same : pass.enumFor? q = some m := by
    rw [enumFor?, final]
    exact enumFor?_perform later given
  rw [Option.some.inj (answered.symm.trans same)]

/-- The names under which the pass declares the enums of schemas. -/
def ownEnums (pass : Pass) : List String :=
  (pass.table.schemas.filter fun p =>
    p.2.isEnum && !pass.earlier.declaredNames.contains p.1).map Prod.fst

theorem mem_ownEnums :
    name ∈ pass.ownEnums ↔
      ∃ s, (name, s) ∈ pass.table.schemas ∧ s.isEnum = true ∧ name ∉ pass.earlier.names := by
  have unknown : pass.earlier.declaredNames.contains name = false ↔ name ∉ pass.earlier.names := by
    rw [← Bool.not_eq_true, NameSet.contains_iff, declaredNames, NameSet.mem_ofList]
  rw [← unknown]
  simp [ownEnums]

section Run

variable (fits : pass.table.Fits pass.taken) (finished : pass.run = .ok set)
include fits finished

theorem mem_enums_of_ownEnums (own : name ∈ pass.ownEnums) :
    name ∈ set.enums.map EnumDeclaration.name := by
  obtain ⟨s, member, isEnum, new⟩ := mem_ownEnums.mp own
  obtain ⟨-, outcomes, returned⟩ := returns_of_run finished
  rw [(enum_names_of_run fits finished).2]
  exact mem_names_of_isEnum fits (declaresAll_of_returns returned) member new isEnum

/-- The enums that were declared before are kept. -/
theorem mem_enums_of_earlier (old : name ∈ pass.earlier.enums.map EnumDeclaration.name) :
    name ∈ set.enums.map EnumDeclaration.name := by
  obtain ⟨-, outcomes, returned⟩ := returns_of_run finished
  obtain ⟨es, final, -⟩ := exists_effects returned
  rw [(enum_names_of_run fits finished).2, final]
  exact mem_names_perform es ((mem_start_names pass).mpr old)

end Run

end Pass

/-! ### Histories -/

/-- Chains of passes, with the names under which enums of schemas were declared so far. The first
pass has no seed, and each later one is seeded with what the one before it yielded. -/
inductive History : (owned : List String) → (seed : Option DeclarationSet) → Prop
  | start : History [] none
  | pass {owned : List String} {seed : Option DeclarationSet} {r : Request} {pass : Pass}
    {set : DeclarationSet} : History owned seed → r.pass seed = .ok pass → pass.run = .ok set →
    History (owned ++ pass.ownEnums) (some set)

namespace History

variable {owned : List String} {seed : Option DeclarationSet} {r : Request} {pass : Pass}
  {set : DeclarationSet} {q n name : String}

theorem valid (history : History owned seed) : ∀ s ∈ seed, s.Valid := by
  induction history with
  | start => nofun
  | pass _ prepared finished ih =>
    rintro s ⟨⟩
    exact Pass.run_valid (Request.pass_ready ih prepared) finished

/-- The enums of schemas are still there. -/
theorem mem_enums (history : History owned seed) (member : name ∈ owned) :
    name ∈ (seed.getD .empty).enums.map EnumDeclaration.name := by
  induction history with
  | start => cases member
  | @pass _ _ _ pass _ _ prepared finished ih =>
    have fits := Request.pass_fits prepared
    rcases List.mem_append.mp member with old | own
    · have earlier := ih old
      rw [← Request.earlier_of_pass prepared] at earlier
      exact Pass.mem_enums_of_earlier fits finished earlier
    · exact Pass.mem_enums_of_ownEnums fits finished own

/-- In every pass of a chain, the string enums inside schemas that ask for a name are bound to one
enum. It is that of a schema exactly if an earlier pass declared the enum of a schema under the very
name. Where the seed has no enum of the name, the enum is new, and no schema has its name. -/
theorem inline_enum_owned_iff (history : History owned seed) (prepared : r.pass seed = .ok pass)
    (finished : pass.run = .ok set) (asked : pass.Requests pass.earlier q) :
    ∃ n, pass.Binds q n ∧ (n ∈ owned ++ pass.ownEnums ↔ q ∈ owned) ∧
      (q ∈ pass.earlier.enums.map EnumDeclaration.name → n = q) ∧
      (q ∉ pass.earlier.enums.map EnumDeclaration.name →
        n ∉ pass.earlier.names ∧ n ∉ Entries.keys pass.table.schemas ∧
          NameTable.IsVariant q n) := by
  have ready := Request.pass_ready history.valid prepared
  have enumOfOwned name (member : name ∈ owned) :
      name ∈ pass.earlier.enums.map EnumDeclaration.name := by
    rw [Request.earlier_of_pass prepared]
    exact history.mem_enums member
  rcases Pass.answer_of_run finished asked with
    ⟨known, answered⟩ | ⟨unknown, n, answered, free, variant⟩
  · refine ⟨q, Pass.binds_of_enumFor? answered, ?_, fun _ => rfl,
      fun unknown => absurd known unknown⟩
    have notOwn : q ∉ pass.ownEnums := by
      intro own
      obtain ⟨s, -, -, new⟩ := Pass.mem_ownEnums.mp own
      exact new (List.mem_append_right _ known)
    rw [List.mem_append, or_iff_left notOwn]
  · have notEarlier : n ∉ pass.earlier.names := fun old =>
      free (Pass.start_taken pass (ready.reserved n old))
    have notKey : n ∉ Entries.keys pass.table.schemas := fun key =>
      free (Pass.start_held ready.fits n key)
    refine ⟨n, Pass.binds_of_enumFor? answered, iff_of_false ?_ ?_,
      fun known => absurd known unknown, fun _ => ⟨notEarlier, notKey, variant⟩⟩
    · rintro captured
      rcases List.mem_append.mp captured with old | own
      · exact notEarlier (List.mem_append_right _ (enumOfOwned n old))
      · obtain ⟨s, member, -⟩ := Pass.mem_ownEnums.mp own
        exact notKey (Entries.mem_keys.mpr ⟨s, member⟩)
    · exact fun old => unknown (enumOfOwned q old)

end History

/-! ### Tags of pets

The first document declares the tags of a pet as an enum of their own. The second one asks for them
inside the pet, and for moods, which it declares as an enum as well.
-/

namespace Tags

open Zoo

def first : Request :=
  .ofDocument <| document [("PetTag", status)]

def second : Request :=
  { Request.ofDocument (document [
      ("Pet", object [("tag", status), ("mood", status)]), ("PetMood", status)]) with
    retained := ["Pet"] }

def firstSet : DeclarationSet where
  declarations := []
  enums := [.ofLiterals "PetTag" ["open", "closed"] none]
  referenced := .empty

def secondSet : DeclarationSet where
  declarations := [
    .record "Pet" [.field "tag" "tag" (.reference "PetTag" false) false none,
      .field "mood" "mood" (.reference "PetMood1" false) false none] none]
  enums := firstSet.enums ++
    [.ofLiterals "PetMood1" ["open", "closed"] none, .ofLiterals "PetMood" ["open", "closed"] none]
  referenced := .ofList ["PetTag", "PetMood1"]

def firstPass : Pass :=
  (first.pass none).toOption.getD default

def secondPass : Pass :=
  (second.pass (some firstSet)).toOption.getD default

theorem pass_first : first.pass none = .ok firstPass :=
  eq_ok_getD (by decide +kernel)

theorem pass_second : second.pass (some firstSet) = .ok secondPass :=
  eq_ok_getD (by decide +kernel)

theorem run_first : firstPass.run = .ok firstSet :=
  eq_ok_of_toOption (by decide +kernel)

theorem run_second : secondPass.run = .ok secondSet :=
  eq_ok_of_toOption (by decide +kernel)

theorem history : History ["PetTag"] (some firstSet) := by
  have owned : firstPass.ownEnums = ["PetTag"] := by decide +kernel
  exact owned ▸ .pass .start pass_first run_first

theorem schemas_second : secondPass.table.schemas =
    [("Pet", object [("tag", status), ("mood", status)]), ("PetMood", status)] :=
  rfl

/-- The pet asks for both of its enums. -/
theorem requests {key : String} (listed : (key, status) ∈ [("tag", status), ("mood", status)]) :
    secondPass.Requests secondPass.earlier (propertyTypeName "Pet" (Text.trim key)) := by
  have member : ("Pet", object [("tag", status), ("mood", status)]) ∈ secondPass.table.schemas := by
    rw [schemas_second]
    exact List.mem_cons_self
  have new : "Pet" ∉ secondPass.earlier.names := by
    rw [Request.earlier_of_pass pass_second]
    decide
  refine ⟨_, member, new, ["open", "closed"], ?_⟩
  have asks : (secondPass.scope "Pet").Causes status (propertyTypeName "Pet" (Text.trim key))
      (.request (propertyTypeName "Pet" (Text.trim key)) ["open", "closed"]) :=
    .literals ⟨some (.scalar .string), rfl, rfl⟩ rfl
  exact ⟨.fields [("tag", status), ("mood", status)], ⟨none, rfl, rfl⟩, (key, status), listed, asks⟩

end Tags

/-- The mood of a pet is numbered, because the second document declares an enum of that name. -/
theorem pet_mood_owned_iff : History ["PetTag"] (some Tags.firstSet) ∧
    Tags.second.pass (some Tags.firstSet) = .ok Tags.secondPass ∧
    Tags.secondPass.run = .ok Tags.secondSet ∧
    Tags.secondPass.Requests Tags.secondPass.earlier "PetMood" ∧
    ∃ n, Tags.secondPass.Binds "PetMood" n ∧
      (n ∈ ["PetTag"] ++ Tags.secondPass.ownEnums ↔ "PetMood" ∈ ["PetTag"]) ∧
      n ∉ Tags.secondPass.earlier.names ∧ n ∉ Entries.keys Tags.secondPass.table.schemas ∧
      NameTable.IsVariant "PetMood" n := by
  have asked : Tags.secondPass.Requests Tags.secondPass.earlier "PetMood" := by
    have named : propertyTypeName "Pet" (Text.trim "mood") = "PetMood" := by decide +kernel
    exact named ▸ Tags.requests (by simp)
  obtain ⟨n, binds, owned, -, new⟩ :=
    History.inline_enum_owned_iff Tags.history Tags.pass_second Tags.run_second asked
  have unknown : "PetMood" ∉ Tags.secondPass.earlier.enums.map EnumDeclaration.name := by
    rw [Request.earlier_of_pass Tags.pass_second]
    decide
  exact ⟨Tags.history, Tags.pass_second, Tags.run_second, asked, n, binds, owned, new unknown⟩

/-- The tag of a pet is bound to the enum of the schema in the first document. -/
theorem not_always_own_inline_enum : ¬ ∀ (owned : List String) (seed : Option DeclarationSet)
    (r : Request) (pass : Pass) (set : DeclarationSet) (q n : String), History owned seed →
    r.pass seed = .ok pass → pass.run = .ok set → pass.Requests pass.earlier q →
    pass.enumFor? q = some n → n ∉ owned ++ pass.ownEnums := by
  intro always
  have asked : Tags.secondPass.Requests Tags.secondPass.earlier "PetTag" := by
    have named : propertyTypeName "Pet" (Text.trim "tag") = "PetTag" := by decide +kernel
    exact named ▸ Tags.requests (by simp)
  have answered : Tags.secondPass.enumFor? "PetTag" = some "PetTag" := by decide +kernel
  have free := always _ _ _ _ _ _ _ Tags.history Tags.pass_second Tags.run_second asked answered
  exact free (List.mem_append_left _ List.mem_cons_self)

end SchemaTypes
