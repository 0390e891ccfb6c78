import SchemaTypes.Proofs.Types.References
import Mathlib.Logic.Relation

/-!
# Parts of types

The parts of a type are the type itself and what stands inside it, at any depth. The records among
the parts of a declaration are its inline records, and their bodies are lists of members, like the
body of a declared record. In the same way its unions are those among its parts, and the declared
one.
-/
namespace SchemaTypes

variable {name : String}

/-- The type of a field, nothing for an inclusion. -/
def Member.fieldType : Member → Option TypeExpr
  | .field _ _ type _ _ => some type
  | .inclusion _ => none

/-- The types right inside a type. -/
def TypeExpr.types : TypeExpr → List TypeExpr
  | .record members _ => members.filterMap Member.fieldType
  | .array element _ => [element]
  | .union members _ => members
  | .reference .. | .scalar .. | .any _ => []

/-- The second type is the first one or stands inside it. -/
abbrev TypeExpr.Part : TypeExpr → TypeExpr → Prop :=
  Relation.ReflTransGen fun t u => u ∈ t.types

/-- The types right inside the body of a declaration. -/
def Declaration.types : Declaration → List TypeExpr
  | .record _ members _ => members.filterMap Member.fieldType
  | .union _ members _ => members
  | .array _ element _ _ => [element]
  | .scalar .. | .any .. => []

/-- The members are the body of the declared record or of a record inside it. -/
inductive Declaration.HasBody : Declaration → List Member → Prop
  | own (name : String) (members : List Member) (description : Option String) :
    HasBody (.record name members description) members
  | inline {d : Declaration} {t : TypeExpr} {members : List Member} {nullable : Bool} :
    t ∈ d.types → t.Part (.record members nullable) → HasBody d members

/-- The members are the body of a record in the set, declared or inline. -/
def DeclarationSet.HasBody (set : DeclarationSet) (members : List Member) : Prop :=
  ∃ d ∈ set.declarations, d.HasBody members

/-- The members are those of the declared union or of a union inside it. -/
inductive Declaration.HasUnion : Declaration → List TypeExpr → Prop
  | own (name : String) (members : List TypeExpr) (description : Option String) :
    HasUnion (.union name members description) members
  | inline {d : Declaration} {t : TypeExpr} {members : List TypeExpr} {nullable : Bool} :
    t ∈ d.types → t.Part (.union members nullable) → HasUnion d members

/-- The members are those of a union in the set, declared or inside a declaration. -/
def DeclarationSet.HasUnion (set : DeclarationSet) (members : List TypeExpr) : Prop :=
  ∃ d ∈ set.declarations, d.HasUnion members

theorem mem_filterMap_fieldType {members : List Member} {t : TypeExpr} :
    t ∈ members.filterMap Member.fieldType ↔
      ∃ name key required description, .field name key t required description ∈ members := by
  rw [List.mem_filterMap]
  constructor
  · rintro ⟨m, member, typed⟩
    cases m with
    | field name key type required description =>
      cases typed
      exact ⟨name, key, required, description, member⟩
    | inclusion => cases typed
  · rintro ⟨name, key, required, description, member⟩
    exact ⟨_, member, rfl⟩

/-! ### Induction over parts -/

private theorem sizeOf_inside {t u : TypeExpr} (inside : u ∈ t.types) : sizeOf u < sizeOf t := by
  cases t with
  | record members nullable =>
    obtain ⟨_, _, _, _, member⟩ := mem_filterMap_fieldType.mp inside
    have within := List.sizeOf_lt_of_mem member
    simp only [Member.field.sizeOf_spec, TypeExpr.record.sizeOf_spec] at within ⊢
    omega
  | array element nullable =>
    rw [List.mem_singleton.mp inside, TypeExpr.array.sizeOf_spec]
    omega
  | union members nullable =>
    have within : sizeOf u < sizeOf members := List.sizeOf_lt_of_mem inside
    rw [TypeExpr.union.sizeOf_spec]
    omega
  | reference | scalar | any => cases inside

/-- What holds of a type when it holds of the types right inside it holds of every type. -/
@[elab_as_elim]
theorem TypeExpr.partInduction {P : TypeExpr → Prop} (step : ∀ t, (∀ u ∈ t.types, P u) → P t)
    (t : TypeExpr) : P t :=
  step t fun u _ => partInduction step u
termination_by sizeOf t
decreasing_by exact sizeOf_inside ‹_›

/-- Something holds of all parts exactly if it holds of the type and of all parts of the types right
inside it. -/
theorem TypeExpr.forall_part_iff {P : TypeExpr → Prop} {t : TypeExpr} :
    (∀ u, t.Part u → P u) ↔ P t ∧ ∀ inner ∈ t.types, ∀ u, inner.Part u → P u := by
  constructor
  · exact fun each => ⟨each t .refl, fun inner inside u part => each u (part.head inside)⟩
  · rintro ⟨own, below⟩ u part
    rcases part.cases_head with rfl | ⟨inner, inside, rest⟩
    · exact own
    · exact below inner inside u rest

/-! ### Mentioned inside -/

theorem TypeExpr.mentions_of_types {t u : TypeExpr} (inside : u ∈ t.types)
    (mentioned : u.Mentions name) : t.Mentions name := by
  cases t with
  | record members nullable =>
    obtain ⟨_, key, required, description, member⟩ := mem_filterMap_fieldType.mp inside
    exact .record nullable member (.field _ key required description mentioned)
  | array element nullable => exact .array nullable (List.mem_singleton.mp inside ▸ mentioned)
  | union members nullable => exact .union nullable inside mentioned
  | reference | scalar | any => cases inside

/-- A type mentions what its parts mention. -/
theorem TypeExpr.Part.mentions {t u : TypeExpr} (part : t.Part u) (mentioned : u.Mentions name) :
    t.Mentions name := by
  induction part using Relation.ReflTransGen.head_induction_on with
  | refl => exact mentioned
  | head inside _ ih => exact TypeExpr.mentions_of_types inside ih

theorem Declaration.mentions_of_types {d : Declaration} {t : TypeExpr} (inside : t ∈ d.types)
    (mentioned : t.Mentions name) : d.Mentions name := by
  cases d with
  | record n members description =>
    obtain ⟨_, key, required, _, member⟩ := mem_filterMap_fieldType.mp inside
    exact .record n description member (.field _ key required _ mentioned)
  | union n members description => exact .union n description inside mentioned
  | array n element nullable description =>
    exact .array n nullable description (List.mem_singleton.mp inside ▸ mentioned)
  | scalar | any => cases inside

/-- A declaration mentions what is included in one of its bodies. -/
theorem Declaration.HasBody.mentions {d : Declaration} {members : List Member}
    (body : d.HasBody members) (included : .inclusion name ∈ members) : d.Mentions name := by
  cases body with
  | own n _ description => exact .record n description included (.inclusion name)
  | @inline _ t _ nullable inside part =>
    have mentioned : (TypeExpr.record members nullable).Mentions name :=
      .record nullable included (.inclusion name)
    exact Declaration.mentions_of_types inside (part.mentions mentioned)

end SchemaTypes
