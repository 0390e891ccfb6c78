import SchemaTypes.Proofs.Document.Children
import SchemaTypes.Resolve.Declare
import Mathlib.Tactic.Common

/-!
# Shapes

The parts of a schema node compete for its type. Its shape is the part that wins, and both inline
resolution and declaration look the shape up and go on from there. In the same way a member of
`allOf` has a share in the merged record.
-/
namespace SchemaTypes

/-- What decides on the type of a node. -/
inductive Shape where
  | merged
  | union (alternatives : List Schema)
  | fields (properties : List (String × Schema))
  | reference (pointer : String)
  | emptyRecord
  | array (items : Option Schema)
  | literals (literals : List Json)
  | scalar (kind : ScalarKind)
  | any

namespace Shape

/-- The shape of a node by its type and reference, where no other part has decided. -/
def ofType (s : Schema) : Option NodeType → Shape
  | some .object =>
    match s.facets.reference with
    | some pointer => reference pointer
    | none => emptyRecord
  | some .array => array s.items
  | some (.scalar .string) =>
    match s.facets.literals with
    | [] => scalar .string
    | l :: ls => literals (l :: ls)
  | some (.scalar kind) => scalar kind
  | none =>
    match s.facets.reference with
    | some pointer => reference pointer
    | none => any

/-- The nodes that a shape is made from, apart from those below `allOf`. -/
def parts : Shape → List Schema
  | union alternatives => alternatives
  | fields properties => properties.map Prod.snd
  | array items => items.toList
  | _ => []

/-- The shape is one that the type and the reference of a node settle. -/
def isOfType : Shape → Bool
  | merged | union _ | fields _ => false
  | reference _ | emptyRecord | array _ | literals _ | scalar _ | any => true

end Shape

/-- The shape of a node whose type names the given one. -/
def Schema.shape (s : Schema) (type : Option NodeType) : Shape :=
  match s.allOf, s.oneOf, s.anyOf, s.properties with
  | _ :: _, _, _, _ => .merged
  | [], a :: as, _, _ => .union (a :: as)
  | [], [], a :: as, _ => .union (a :: as)
  | [], [], [], some ps => .fields ps
  | [], [], [], none => .ofType s type

/-- What a member of `allOf` has to give. -/
inductive Share where
  | nested
  | refused (kind : String)
  | fields (properties : List (String × Schema))
  | inclusion (pointer : String)
  | nothing

/-- The share of a member whose type names the given one. -/
def Schema.share (s : Schema) (type : Option NodeType) : Share :=
  match s.allOf, s.oneOf, s.anyOf, s.properties, s.facets.reference with
  | _ :: _, _, _, _, _ => .nested
  | [], _ :: _, _, _, _ => .refused "oneOf"
  | [], [], _ :: _, _, _ => .refused "anyOf"
  | [], [], [], some ps, _ => .fields ps
  | [], [], [], none, some pointer => .inclusion pointer
  | [], [], [], none, none =>
    match type, s.facets.type with
    | some .object, _ => .nothing
    | some _, some word => .refused word
    | _, _ => .nothing

namespace Scope

/-- The type that a shape gives to a node. -/
def typeOfShape (scope : Scope) (s : Schema) (typeName : String) : Shape → Resolve TypeExpr
  | .merged => do pure (.record (← scope.flatten false s typeName) s.isNullable)
  | .union ss => do pure (.union (← scope.resolveAlternatives ss typeName 1 []) s.isNullable)
  | .fields ps => do
    pure (.record (← scope.resolveFields ps s.facets.required typeName) s.isNullable)
  | .reference pointer => scope.resolveReference pointer s.isNullable
  | .emptyRecord => pure (.record [] s.isNullable)
  | .array (some items) => do
    pure (.array (← scope.resolve items (typeName ++ "Item")) s.isNullable)
  | .array none => pure (.array (.any false) s.isNullable)
  | .literals literals => scope.resolveEnum literals s.isNullable typeName
  | .scalar kind => pure (.scalar kind s.isNullable)
  | .any => pure (.any s.isNullable)

/-- What a shape makes the declaration of a node come to. -/
def outcomeOfShape (scope : Scope) (s : Schema) : Shape → Resolve Outcome
  | .merged => do
    pure (.declared (.record scope.schema (← scope.flatten true s scope.schema) s.summary))
  | .union ss => do
    pure (.declared
      (.union scope.schema (← scope.resolveAlternatives ss scope.schema 1 []) s.summary))
  | .fields ps => do
    pure (.declared
      (.record scope.schema (← scope.resolveFields ps s.facets.required scope.schema) s.summary))
  | .reference pointer => scope.inclusionRecord pointer s.summary
  | .emptyRecord => pure (.declared (.record scope.schema [] s.summary))
  | .array (some items) => do
    pure (.declared (.array scope.schema (← scope.resolve items (scope.schema ++ "Item"))
      s.isNullable s.summary))
  | .array none => pure (.declared (.array scope.schema (.any false) s.isNullable s.summary))
  | .literals literals => scope.declareEnum literals s.summary
  | .scalar kind => pure (.declared (.scalar scope.schema kind s.isNullable s.summary))
  | .any =>
    match s.declaredNullability with
    | some nullable => pure (.declared (.any scope.schema nullable s.summary))
    | none => pure (.vacuous s.summary)

/-- The members that a share contributes. -/
def partsOfShare (scope : Scope) (declaring : Bool) (s : Schema) (typeName : String) :
    Share → Resolve (List Member)
  | .nested => scope.flatten declaring s typeName
  | .refused kind => throw (.unmergeable scope.schema kind)
  | .fields ps => scope.resolveFields ps s.facets.required typeName
  | .inclusion pointer => do
    let target ← scope.referenceTarget pointer
    if declaring then scope.checkInclusion target
    pure [.inclusion target]
  | .nothing => pure []

/-! ### Each function is a lookup -/

theorem resolve_eq (scope : Scope) (s : Schema) (typeName : String) :
    scope.resolve s typeName = (do
      let type ← scope.nodeType s.facets
      scope.typeOfShape s typeName (s.shape type)) := by
  rcases s with ⟨⟨_, _, _, _, literals, reference, _, _⟩, properties, items, allOf, oneOf, anyOf⟩
  rw [Scope.resolve]
  refine bind_congr fun type => ?_
  -- Both sides try the parts in the same order, so once a part decides they compute to the same.
  cases allOf with
  | cons =>
    cases properties <;>
      simp [typeOfShape, Schema.shape, flatten, Schema.allOf, Schema.properties, Schema.facets,
        Schema.isNullable]
  | nil =>
    cases oneOf with
    | cons => rfl
    | nil =>
      cases anyOf with
      | cons => rfl
      | nil =>
        cases properties with
        | some => rfl
        | none =>
          rcases type with _ | kind | _ | _
          · cases reference <;> rfl
          · cases kind with
            | string => cases literals <;> rfl
            | _ => rfl
          · cases reference <;> rfl
          · cases items <;> rfl

theorem declare_eq (scope : Scope) (s : Schema) :
    scope.declare s = (do
      let type ← scope.nodeType s.facets
      scope.outcomeOfShape s (s.shape type)) := by
  unfold Scope.declare
  refine bind_congr fun type => ?_
  unfold Schema.shape
  cases s.allOf with
  | cons => rfl
  | nil =>
    cases s.oneOf with
    | cons => rfl
    | nil =>
      cases s.anyOf with
      | cons => rfl
      | nil =>
        cases s.properties with
        | some => rfl
        | none =>
          unfold Shape.ofType
          rcases type with _ | kind | _ | _
          · cases s.facets.reference with
            | some => rfl
            | none =>
              simp only [outcomeOfShape]
              cases s.declaredNullability <;> rfl
          · cases kind with
            | string => cases s.facets.literals <;> rfl
            | _ => rfl
          · cases s.facets.reference <;> rfl
          · cases s.items <;> rfl

theorem memberParts_eq (scope : Scope) (declaring : Bool) (s : Schema) (typeName : String) :
    scope.memberParts declaring s typeName = (do
      let type ← scope.nodeType s.facets
      scope.partsOfShare declaring s typeName (s.share type)) := by
  rcases s with ⟨⟨word, _, _, _, _, reference, _, _⟩, properties, items, allOf, oneOf, anyOf⟩
  rw [Scope.memberParts]
  refine bind_congr fun type => ?_
  cases allOf with
  | cons => cases properties <;> rfl
  | nil =>
    cases oneOf with
    | cons => rfl
    | nil =>
      cases anyOf with
      | cons => rfl
      | nil =>
        cases properties with
        | some => rfl
        | none =>
          cases reference with
          | some => rfl
          | none => rcases type with _ | kind | _ | _ <;> cases word <;> rfl

end Scope

/-! ### What a type says about its word -/

namespace Scope

variable {scope : Scope}

theorem nodeType_eq_none {f : Facets} (named : scope.nodeType f = .ok none) : f.type = none := by
  unfold nodeType at named
  split at named
  next untyped => exact untyped
  · split at named <;> cases named

theorem word_eq_object {word : String} {format : Option String}
    (meant : NodeType.ofWord? word format = some .object) : word = "object" := by
  unfold NodeType.ofWord? at meant
  split at meant
  · cases meant
  · cases meant
  · cases meant
  · cases meant
  · rfl
  · cases meant
  · cases meant

theorem nodeType_eq_some {f : Facets} {kind : NodeType}
    (named : scope.nodeType f = .ok (some kind)) :
    ∃ word, f.type = some word ∧ NodeType.ofWord? word f.format = some kind := by
  unfold nodeType at named
  split at named
  · cases named
  next word typed =>
    split at named
    next meant =>
      cases named
      exact ⟨word, typed, meant⟩
    · cases named

theorem nodeType_eq_object {f : Facets} (named : scope.nodeType f = .ok (some .object)) :
    f.type = some "object" := by
  obtain ⟨word, typed, meant⟩ := nodeType_eq_some named
  rw [typed, word_eq_object meant]

/-- Any other type stands for another word. -/
theorem not_object_of_nodeType {f : Facets} {kind : NodeType}
    (named : scope.nodeType f = .ok (some kind)) (other : kind ≠ .object) :
    f.type.isNone = false ∧ (f.type == some "object") = false := by
  obtain ⟨word, typed, meant⟩ := nodeType_eq_some named
  have different : word ≠ "object" := by
    rintro rfl
    cases meant
    exact other rfl
  simp [typed, different]

/-- Literals are read alike in all scopes of a schema. -/
theorem enumLiterals_congr (scope other : Scope) (same : other.schema = scope.schema)
    (literals : List Json) : other.enumLiterals literals = scope.enumLiterals literals := by
  induction literals with
  | nil => rfl
  | cons l rest ih => cases l <;> simp only [enumLiterals, ih, same]

end Scope

/-! ### What a shape says about its node -/

namespace Schema

variable {s : Schema} {type : Option NodeType} {pointer : String}

/-- The parts of a shape stand right below the node. -/
theorem mem_children_of_parts {c : Schema} (part : c ∈ (s.shape type).parts) : c ∈ s.children := by
  unfold shape at part
  split at part
  · cases part
  next found => exact mem_children_of_oneOf (found ▸ part)
  next found => exact mem_children_of_anyOf (found ▸ part)
  next found =>
    obtain ⟨p, member, same⟩ := List.mem_map.mp part
    exact mem_children.mpr (Or.inl ⟨_, found, p, member, same⟩)
  · unfold Shape.ofType at part
    split at part
    · split at part <;> cases part
    · exact mem_children.mpr (Or.inr (Or.inl (Option.mem_toList.mp part)))
    · split at part <;> cases part
    · cases part
    · split at part <;> cases part

theorem ofType_eq_reference (found : Shape.ofType s type = .reference pointer) :
    s.facets.reference = some pointer ∧ (type = none ∨ type = some .object) := by
  unfold Shape.ofType at found
  split at found
  · split at found
    next referred => cases found; exact ⟨referred, Or.inr rfl⟩
    · cases found
  · cases found
  · split at found <;> cases found
  · cases found
  · split at found
    next referred => cases found; exact ⟨referred, Or.inl rfl⟩
    · cases found

/-- The literals of a string count if there are any. -/
theorem ofType_eq_literals {literals : List Json}
    (found : Shape.ofType s type = .literals literals) :
    literals = s.facets.literals ∧ literals ≠ [] := by
  unfold Shape.ofType at found
  split at found
  · split at found <;> cases found
  · cases found
  · split at found
    · cases found
    next given => cases found; exact ⟨given.symm, List.cons_ne_nil _ _⟩
  · cases found
  · split at found <;> cases found

theorem shape_eq_ofType (plain : s.hasComposition = false) (noProperties : s.properties = none) :
    s.shape type = Shape.ofType s type := by
  simp only [hasComposition, Bool.or_eq_false_iff, Bool.not_eq_false', List.isEmpty_iff] at plain
  simp [shape, plain, noProperties]

/-- The type and the reference settle what neither composition nor properties do. -/
theorem ofType_of_shape {found : Shape} (shaped : s.shape type = found)
    (settled : found.isOfType = true) :
    s.hasComposition = false ∧ s.properties = none ∧ Shape.ofType s type = found := by
  unfold shape at shaped
  split at shaped
  · rw [← shaped] at settled; cases settled
  · rw [← shaped] at settled; cases settled
  · rw [← shaped] at settled; cases settled
  · rw [← shaped] at settled; cases settled
  next noAllOf noOneOf noAnyOf noProperties =>
    exact ⟨by simp [hasComposition, noAllOf, noOneOf, noAnyOf], noProperties, shaped⟩

/-- A node that is a reference says nothing else about its type, except that it is an object. -/
theorem shape_eq_reference (found : s.shape type = .reference pointer) :
    s.hasComposition = false ∧ s.properties = none ∧ s.facets.reference = some pointer ∧
      (type = none ∨ type = some .object) := by
  obtain ⟨plain, noProperties, referred⟩ := ofType_of_shape found rfl
  exact ⟨plain, noProperties, ofType_eq_reference referred⟩

theorem shape_eq_literals {literals : List Json} (found : s.shape type = .literals literals) :
    literals = s.facets.literals :=
  (ofType_eq_literals (ofType_of_shape found rfl).2.2).1

/-- Without literals a string is a plain one. -/
theorem shape_literals_ne_nil {literals : List Json} (found : s.shape type = .literals literals) :
    literals ≠ [] :=
  (ofType_eq_literals (ofType_of_shape found rfl).2.2).2

theorem isOfType_ofType (s : Schema) (type : Option NodeType) :
    (Shape.ofType s type).isOfType = true := by
  unfold Shape.ofType
  split
  · split <;> rfl
  · rfl
  · split <;> rfl
  · rfl
  · split <;> rfl

theorem shape_of_allOf (given : s.allOf ≠ []) (type : Option NodeType) :
    s.shape type = .merged := by
  unfold shape
  cases found : s.allOf with
  | nil => exact absurd found given
  | cons => rfl

theorem shape_eq_merged (found : s.shape type = .merged) : s.allOf ≠ [] := by
  intro noAllOf
  unfold shape at found
  rw [noAllOf] at found
  split at found
  next given => cases given
  · cases found
  · cases found
  · cases found
  · have settled := isOfType_ofType s type
    rw [found] at settled
    cases settled

theorem shape_eq_fields {ps : List (String × Schema)} (found : s.shape type = .fields ps) :
    s.properties = some ps := by
  unfold shape at found
  split at found
  · cases found
  · cases found
  · cases found
  next given => cases found; exact given
  · have settled := isOfType_ofType s type
    rw [found] at settled
    cases settled

theorem shape_eq_array {items : Option Schema} (found : s.shape type = .array items) :
    s.items = items := by
  obtain ⟨-, -, typed⟩ := ofType_of_shape found rfl
  unfold Shape.ofType at typed
  split at typed
  · split at typed <;> cases typed
  · cases typed; rfl
  · split at typed <;> cases typed
  · cases typed
  · split at typed <;> cases typed

theorem share_eq_fields {ps : List (String × Schema)} (found : s.share type = .fields ps) :
    s.properties = some ps := by
  unfold share at found
  split at found
  · cases found
  · cases found
  · cases found
  next given => cases found; exact given
  · cases found
  · split at found <;> cases found

/-- What a share says about the parts of the node that have something to give. -/
theorem of_share (s : Schema) (type : Option NodeType) :
    match s.share type with
    | .nested => s.allOf ≠ []
    | .refused _ => True
    | .fields ps => s.allOf = [] ∧ s.properties = some ps
    | .inclusion pointer =>
      s.allOf = [] ∧ s.properties = none ∧ s.facets.reference = some pointer
    | .nothing => s.allOf = [] ∧ s.properties = none ∧ s.facets.reference = none := by
  unfold share
  cases noAllOf : s.allOf with
  | cons => simp
  | nil =>
    cases s.oneOf with
    | cons => trivial
    | nil =>
      cases s.anyOf with
      | cons => trivial
      | nil =>
        cases properties : s.properties with
        | some ps => exact ⟨rfl, rfl⟩
        | none =>
          cases reference : s.facets.reference with
          | some pointer => exact ⟨rfl, rfl, rfl⟩
          | none => rcases type with _ | kind | _ | _ <;> cases s.facets.type <;> simp

end Schema
end SchemaTypes
