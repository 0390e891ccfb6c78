import SchemaTypes.Proofs.Resolve.Origin

/-!
# Kinds of declarations

A few parts of a schema settle what it is declared as, whatever it refers to: as a record, as
nothing of its own, or as another kind. The bodies in the declaration are made from its nodes.
-/
namespace SchemaTypes

open Resolve

/-- The parts that make the declaration a record. -/
def Schema.isRecord (s : Schema) : Bool :=
  !s.allOf.isEmpty ||
    !s.hasComposition && (s.isObject || s.facets.type.isNone && s.facets.reference.isSome)

/-- The reference decides on the type of the node. -/
def Schema.isReference (s : Schema) : Bool :=
  !s.hasComposition && s.isBareReference

/-- None of the parts is there that a declaration could be made from. -/
def Schema.isShapeless (s : Schema) : Bool :=
  !s.hasComposition && s.properties.isNone && s.facets.type.isNone && s.facets.reference.isNone &&
    s.declaredNullability.isNone

namespace Shape

def isRecord : Shape → Bool
  | merged | fields _ | reference _ | emptyRecord => true
  | union _ | array _ | literals _ | scalar _ | any => false

def isAny : Shape → Bool
  | any => true
  | _ => false

end Shape

namespace Scope

variable {scope : Scope} {s : Schema} {type : Option NodeType} {outcome : Outcome}
  {before after : ResolveState} {d : Declaration} {ms : List Member}

theorem ofType_isRecord (named : scope.nodeType s.facets = .ok type) :
    (Shape.ofType s type).isRecord =
      (s.facets.type == some "object" || s.facets.type.isNone && s.facets.reference.isSome) := by
  unfold Shape.ofType
  rcases type with _ | kind | _ | _
  · have untyped := nodeType_eq_none named
    cases found : s.facets.reference <;> simp [Shape.isRecord, untyped]
  · obtain ⟨typed, notObject⟩ := not_object_of_nodeType named nofun
    rw [typed, notObject]
    cases kind with
    | string => cases s.facets.literals <;> rfl
    | _ => rfl
  · have typed := nodeType_eq_object named
    cases found : s.facets.reference <;> simp [Shape.isRecord, typed]
  · obtain ⟨typed, notObject⟩ := not_object_of_nodeType named nofun
    rw [typed, notObject]
    rfl

theorem ofType_isAny (named : scope.nodeType s.facets = .ok type) :
    (Shape.ofType s type).isAny = (s.facets.type.isNone && s.facets.reference.isNone) := by
  unfold Shape.ofType
  rcases type with _ | kind | _ | _
  · have untyped := nodeType_eq_none named
    cases found : s.facets.reference <;> simp [Shape.isAny, untyped]
  · rw [(not_object_of_nodeType named nofun).1]
    cases kind with
    | string => cases s.facets.literals <;> rfl
    | _ => rfl
  · have typed := nodeType_eq_object named
    cases found : s.facets.reference <;> simp [Shape.isAny, typed]
  · rw [(not_object_of_nodeType named nofun).1]
    rfl

theorem shape_isRecord (named : scope.nodeType s.facets = .ok type) :
    (s.shape type).isRecord = s.isRecord := by
  unfold Schema.shape Schema.isRecord Schema.hasComposition Schema.isObject
  -- The first four cases are decided by a part of their own, the last one by type and reference.
  split
  next given => simp [Shape.isRecord, given]
  next noAllOf given => simp [Shape.isRecord, noAllOf, given]
  next noAllOf _ given => simp [Shape.isRecord, noAllOf, given]
  next noAllOf noOneOf noAnyOf given => simp [Shape.isRecord, noAllOf, noOneOf, noAnyOf, given]
  next noAllOf noOneOf noAnyOf noProperties =>
    rw [ofType_isRecord named]
    simp [noAllOf, noOneOf, noAnyOf, noProperties]

theorem shape_isAny (named : scope.nodeType s.facets = .ok type) :
    (s.shape type).isAny = (!s.hasComposition && s.properties.isNone && s.facets.type.isNone &&
      s.facets.reference.isNone) := by
  unfold Schema.shape Schema.hasComposition
  split
  next given => simp [Shape.isAny, given]
  next given => simp [Shape.isAny, given]
  next given => simp [Shape.isAny, given]
  next given => simp [Shape.isAny, given]
  next noAllOf noOneOf noAnyOf noProperties =>
    rw [ofType_isAny named]
    simp [noAllOf, noOneOf, noAnyOf, noProperties]

theorem shape_eq_reference_iff (named : scope.nodeType s.facets = .ok type) :
    (∃ pointer, s.shape type = .reference pointer) ↔ s.isReference = true := by
  constructor
  · rintro ⟨pointer, found⟩
    obtain ⟨plain, noProperties, given, bare⟩ := Schema.shape_eq_reference found
    have typed : s.facets.type = none ∨ s.facets.type = some "object" := by
      rcases bare with rfl | rfl
      · exact Or.inl (nodeType_eq_none named)
      · exact Or.inr (nodeType_eq_object named)
    rcases typed with untyped | object
    · simp [Schema.isReference, Schema.isBareReference, plain, noProperties, given, untyped]
    · simp [Schema.isReference, Schema.isBareReference, plain, noProperties, given, object]
  · intro isReference
    simp only [Schema.isReference, Schema.isBareReference, Bool.and_eq_true, Bool.not_eq_true',
      Bool.or_eq_true, beq_iff_eq, Option.isNone_iff_eq_none] at isReference
    obtain ⟨plain, ⟨given, noProperties⟩, typed⟩ := isReference
    obtain ⟨pointer, referred⟩ := Option.isSome_iff_exists.mp given
    refine ⟨pointer, ?_⟩
    rw [Schema.shape_eq_ofType plain noProperties]
    -- The word fixes the type, so the reference is what the shape is looked up for.
    rcases typed with untyped | object
    · obtain rfl : none = type := by simpa [nodeType, untyped] using named
      simp [Shape.ofType, referred]
    · obtain rfl : some .object = type := by simpa [nodeType, object, NodeType.ofWord?] using named
      simp [Shape.ofType, referred]

/-! ### Outcomes by shape -/

/-- What the declaration of a node of the shape comes to. -/
inductive OutcomeOf (scope : Scope) (s : Schema) : Shape → Outcome → Prop
  | record {shape : Shape} {ms : List Member} : shape.isRecord = true → scope.Body s ms →
    OutcomeOf scope s shape (.declared (.record scope.schema ms s.summary))
  | union (ss : List Schema) {ts : List TypeExpr} : (∀ t ∈ ts, scope.Origin s t) →
    OutcomeOf scope s (.union ss) (.declared (.union scope.schema ts s.summary))
  | array (items : Option Schema) {element : TypeExpr} : scope.Origin s element →
    OutcomeOf scope s (.array items)
      (.declared (.array scope.schema element s.isNullable s.summary))
  | nulls (literals : List Json) :
    OutcomeOf scope s (.literals literals)
      (.declared (.scalar scope.schema .string true s.summary))
  | enum (literals : List Json) : OutcomeOf scope s (.literals literals) .enum
  | scalar (kind : ScalarKind) :
    OutcomeOf scope s (.scalar kind)
      (.declared (.scalar scope.schema kind s.isNullable s.summary))
  | any {nullable : Bool} : s.declaredNullability = some nullable →
    OutcomeOf scope s .any (.declared (.any scope.schema nullable s.summary))
  | vacuous : s.declaredNullability = none → OutcomeOf scope s .any (.vacuous s.summary)

theorem outcomeOf_of_returns
    (returned : Returns (scope.outcomeOfShape s (s.shape type)) before outcome after) :
    scope.OutcomeOf s (s.shape type) outcome := by
  have parts : ∀ c ∈ (s.shape type).parts, c ∈ s.children :=
    fun c => Schema.mem_children_of_parts
  have properties ps (found : s.shape type = .fields ps) := Schema.shape_eq_fields found
  have referred pointer (found : s.shape type = .reference pointer) :=
    (Schema.shape_eq_reference found).2.2.1
  -- With these facts kept, the shape can be any one, and each runs its own computation.
  generalize s.shape type = shape at parts properties referred returned ⊢
  cases shape with
  | merged =>
    obtain ⟨ms, mid, first, last⟩ := returns_bind.mp returned
    obtain ⟨rfl, -⟩ := returns_pure.mp last
    exact .record rfl (.merged first)
  | fields ps =>
    obtain ⟨ms, mid, first, last⟩ := returns_bind.mp returned
    obtain ⟨rfl, -⟩ := returns_pure.mp last
    exact .record rfl (.fields (properties ps rfl) first)
  | reference pointer =>
    obtain ⟨target, first, -, rfl⟩ := inclusionRecord_returns.mp returned
    exact .record rfl (.inclusion (referred pointer rfl) (referenceTarget_returns.mp first).1)
  | emptyRecord =>
    obtain ⟨rfl, -⟩ := returns_pure.mp returned
    exact .record rfl .empty
  | union ss =>
    obtain ⟨ts, mid, first, last⟩ := returns_bind.mp returned
    obtain ⟨rfl, -⟩ := returns_pure.mp last
    exact .union ss fun t member => origin_of_mem_alternatives parts first member
  | array items =>
    cases items with
    | none =>
      obtain ⟨rfl, -⟩ := returns_pure.mp returned
      exact .array none (Or.inl rfl)
    | some items =>
      obtain ⟨element, mid, first, last⟩ := returns_bind.mp returned
      obtain ⟨rfl, -⟩ := returns_pure.mp last
      exact .array _ (Origin.of_child (parts items List.mem_cons_self) ⟨_, _, _, first⟩)
  | literals literals =>
    obtain ⟨⟨values, null⟩, mid, first, last⟩ := returns_bind.mp returned
    cases values with
    | nil =>
      obtain ⟨rfl, -⟩ := returns_pure.mp last
      exact .nulls literals
    | cons v vs =>
      cases last
      exact .enum literals
  | scalar kind =>
    obtain ⟨rfl, -⟩ := returns_pure.mp returned
    exact .scalar kind
  | any =>
    simp only [outcomeOfShape] at returned
    split at returned
    next nullable declared =>
      obtain ⟨rfl, -⟩ := returns_pure.mp returned
      exact .any declared
    next silent =>
      obtain ⟨rfl, -⟩ := returns_pure.mp returned
      exact .vacuous silent

theorem outcomeOf_of_declare (returned : Returns (scope.declare s) before outcome after) :
    ∃ type, scope.nodeType s.facets = .ok type ∧ scope.OutcomeOf s (s.shape type) outcome := by
  rw [declare_eq, returns_bind] at returned
  obtain ⟨type, mid, first, last⟩ := returned
  exact ⟨type, (returns_lift.mp first).1, outcomeOf_of_returns last⟩

/-! ### Kinds of outcomes -/

/-- A schema is declared as a record exactly if it has the parts of one. -/
theorem declare_record_iff (returned : Returns (scope.declare s) before outcome after) :
    (∃ ms description, outcome = .declared (.record scope.schema ms description)) ↔
      s.isRecord = true := by
  obtain ⟨type, named, kind⟩ := outcomeOf_of_declare returned
  rw [← shape_isRecord named]
  generalize s.shape type = shape at kind ⊢
  constructor
  · rintro ⟨ms, description, rfl⟩
    cases kind with
    | record isRecord _ => exact isRecord
  · intro isRecord
    cases kind with
    | @record _ ms _ _ => exact ⟨ms, s.summary, rfl⟩
    | _ => cases isRecord

/-- The declaration comes to nothing exactly if the schema has no shape. -/
theorem declare_vacuous_iff (returned : Returns (scope.declare s) before outcome after) :
    (∃ description, outcome = .vacuous description) ↔ s.isShapeless = true := by
  obtain ⟨type, named, kind⟩ := outcomeOf_of_declare returned
  rw [Schema.isShapeless, Bool.and_eq_true, ← shape_isAny named, Option.isNone_iff_eq_none]
  generalize s.shape type = shape at kind ⊢
  constructor
  · rintro ⟨description, rfl⟩
    cases kind with
    | vacuous silent => exact ⟨rfl, silent⟩
  · rintro ⟨isAny, silent⟩
    cases kind with
    | record isRecord _ => cases shape <;> simp_all [Shape.isAny, Shape.isRecord]
    | any declared => rw [silent] at declared; cases declared
    | vacuous => exact ⟨s.summary, rfl⟩
    | _ => cases isAny

theorem declare_name (returned : Returns (scope.declare s) before (.declared d) after) :
    d.name = scope.schema := by
  obtain ⟨type, -, kind⟩ := outcomeOf_of_declare returned
  generalize s.shape type = shape at kind
  cases kind <;> rfl

/-- What a schema is declared as has its description. -/
theorem declare_description (returned : Returns (scope.declare s) before outcome after) :
    (∀ d, outcome = .declared d → d.description = s.summary) ∧
      ∀ description, outcome = .vacuous description → description = s.summary := by
  obtain ⟨type, -, kind⟩ := outcomeOf_of_declare returned
  generalize s.shape type = shape at kind
  cases kind <;> constructor <;> rintro _ ⟨⟩ <;> rfl

/-! ### Bodies in declarations -/

theorem OutcomeOf.origin {shape : Shape} {t : TypeExpr}
    (kind : scope.OutcomeOf s shape (.declared d)) (inside : t ∈ d.types) : scope.Origin s t := by
  cases kind with
  | record _ body => exact body.origin inside
  | union _ alternatives => exact alternatives t inside
  | array _ element => exact List.mem_singleton.mp inside ▸ element
  | nulls | scalar | any => cases inside

/-- Every body in the declaration of a schema is made from one of its nodes. -/
theorem body_of_declare (returned : Returns (scope.declare s) before (.declared d) after)
    (body : d.HasBody ms) : ∃ c, s.Contains c ∧ scope.Body c ms := by
  obtain ⟨type, -, kind⟩ := outcomeOf_of_declare returned
  generalize s.shape type = shape at kind
  -- The body of the declaration is that of the node, and any other stands in a type inside.
  cases body with
  | own =>
    cases kind with
    | record _ body => exact ⟨s, .refl, body⟩
  | inline inside part => exact ((kind.origin inside).of_part part).body

end Scope
end SchemaTypes
