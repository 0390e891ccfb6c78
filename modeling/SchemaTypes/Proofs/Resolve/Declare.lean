import SchemaTypes.Proofs.Resolve.Citation

/-!
# What a declaration does

A declaration comes to a named type in steps, or to an enum of the schema's own in one, or to
nothing.
-/
namespace SchemaTypes

open Resolve ResolveState

/-- The name that an outcome keeps for an enum. -/
def Outcome.owned (name : String) : Outcome → List String
  | .enum => [name]
  | _ => []

namespace Scope

variable {α : Type} {scope : Scope} {s : Schema} {before after : ResolveState} {outcome : Outcome}

/-- What a declaration comes to, and the state that it leaves. -/
inductive Declares (scope : Scope) (before : ResolveState) : Outcome → ResolveState → Prop
  | declared {d : Declaration} {after : ResolveState} : d.name = scope.schema →
    Steps scope.table before after → (∀ name ∈ d.references, after.Tracks scope.table name) →
    Declares scope before (.declared d) after
  | enum (values : List String) (description : Option String) :
    Declares scope before .enum
      { before with enums := before.enums.declareOwned scope.schema values description }
  | vacuous (description : Option String) : Declares scope before (.vacuous description) before

/-- A declaration without references needs no steps. -/
theorem Declares.plain {d : Declaration} (named : d.name = scope.schema)
    (closed : d.references = []) : Declares scope before (.declared d) before :=
  .declared named Relation.ReflTransGen.refl (by simp [closed])

theorem Declares.sound (declares : Declares scope before outcome after) (sound : before.Sound)
    (held : scope.schema ∈ before.taken.taken) : after.Sound := by
  cases declares with
  | declared _ steps _ => exact steps.sound sound
  | enum values description => exact EnumTable.declareOwned_sound sound held values description
  | vacuous => exact sound

theorem Declares.grows (declares : Declares scope before outcome after) (sound : before.Sound) :
    Grows (outcome.owned scope.schema) before after := by
  cases declares with
  | declared _ steps _ => exact steps.grows sound
  | enum values description => exact declareOwned_grows before _ values description
  | vacuous => exact Grows.refl before

/-! ### Declaring by shape -/

/-- A declaration refers to what its body refers to. -/
theorem Declares.of_body {body : Resolve α} {references : α → List String} {d : α → Declaration}
    (cites : scope.Cites [] body references) (named : ∀ a, (d a).name = scope.schema)
    (cited : ∀ a, (d a).references = references a) (sound : before.Sound)
    (returned : Returns (do pure (.declared (d (← body)))) before outcome after) :
    Declares scope before outcome after := by
  obtain ⟨a, mid, first, last⟩ := returns_bind.mp returned
  obtain ⟨rfl, rfl⟩ := returns_pure.mp last
  obtain ⟨steps, tracked⟩ := cites sound (by simp) first
  exact .declared (named a) steps (cited a ▸ tracked)

theorem checkInclusion_eq_ok {target : String} {checked : Unit} :
    scope.checkInclusion target = .ok checked ↔
      scope.table.inclusionPath? target scope.schema = none := by
  unfold checkInclusion
  cases scope.table.inclusionPath? target scope.schema <;> simp

theorem inclusionRecord_returns {pointer : String} {description : Option String} :
    Returns (scope.inclusionRecord pointer description) before outcome after ↔
      ∃ target, Returns (scope.referenceTarget pointer) before target after ∧
        scope.table.inclusionPath? target scope.schema = none ∧
        outcome = .declared (.record scope.schema [.inclusion target] description) := by
  simp only [inclusionRecord, returns_bind, returns_pure, returns_lift, checkInclusion_eq_ok]
  grind

theorem inclusionRecord_declares {pointer : String} {description : Option String}
    (sound : before.Sound)
    (returned : Returns (scope.inclusionRecord pointer description) before outcome after) :
    Declares scope before outcome after := by
  obtain ⟨target, first, -, rfl⟩ := inclusionRecord_returns.mp returned
  have cites : scope.Cites [] _ _ := referenceTarget_cites pointer
  obtain ⟨steps, tracked⟩ := cites sound (by simp) first
  exact .declared rfl steps (by simpa [Declaration.references, Member.references] using tracked)

theorem declareEnum_declares {literals : List Json} {description : Option String}
    (returned : Returns (scope.declareEnum literals description) before outcome after) :
    Declares scope before outcome after := by
  obtain ⟨⟨values, null⟩, mid, first, last⟩ := returns_bind.mp returned
  obtain ⟨-, rfl⟩ := returns_lift.mp first
  cases values with
  | nil =>
    -- Nulls alone make a nullable string instead of an enum.
    obtain ⟨rfl, rfl⟩ := returns_pure.mp last
    exact .plain rfl rfl
  | cons v vs =>
    cases last
    exact .enum (v :: vs) description

theorem outcomeOfShape_declares {shape : Shape} (sound : before.Sound)
    (returned : Returns (scope.outcomeOfShape s shape) before outcome after) :
    Declares scope before outcome after := by
  have resolves := (supports_cites scope).resolve
  cases shape with
  | merged => exact .of_body (flatten_cites s _) (fun _ => rfl) (fun _ => rfl) sound returned
  | union ss =>
    have cites : scope.Cites [] (scope.resolveAlternatives ss scope.schema 1 []) _ :=
      (supports_cites scope).resolveAlternatives (fun c _ => resolves c) _ 1 (List.nil_subset _)
    exact .of_body cites (fun _ => rfl) (fun _ => rfl) sound returned
  | fields ps =>
    have cites : scope.Cites [] (scope.resolveFields ps s.facets.required scope.schema) _ :=
      (supports_cites scope).resolveFields (fun p _ => resolves p.2) _ _
    exact .of_body cites (fun _ => rfl) (fun _ => rfl) sound returned
  | reference pointer => exact inclusionRecord_declares sound returned
  | array items =>
    cases items with
    | some items =>
      exact .of_body (resolves items [] _) (fun _ => rfl) (fun _ => rfl) sound returned
    | none =>
      obtain ⟨rfl, rfl⟩ := returns_pure.mp returned
      exact .plain rfl rfl
  | literals literals => exact declareEnum_declares returned
  | emptyRecord | scalar =>
    obtain ⟨rfl, rfl⟩ := returns_pure.mp returned
    exact .plain rfl rfl
  | any =>
    simp only [outcomeOfShape] at returned
    split at returned
    · obtain ⟨rfl, rfl⟩ := returns_pure.mp returned
      exact .plain rfl rfl
    · obtain ⟨rfl, rfl⟩ := returns_pure.mp returned
      exact .vacuous _

theorem declare_declares (sound : before.Sound)
    (returned : Returns (scope.declare s) before outcome after) :
    Declares scope before outcome after := by
  rw [declare_eq, returns_bind] at returned
  obtain ⟨type, mid, first, last⟩ := returned
  obtain ⟨-, rfl⟩ := returns_lift.mp first
  exact outcomeOfShape_declares sound last

end Scope
end SchemaTypes
