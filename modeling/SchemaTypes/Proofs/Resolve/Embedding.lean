import SchemaTypes.Proofs.Resolve.Agreement
import SchemaTypes.Proofs.Resolve.Inclusion
import SchemaTypes.Proofs.Resolve.Kinds

/-!
# What a record embeds

The record of a schema includes what the plain references below its `allOf` lead to, or what the
schema refers to, if it is a reference itself. The inclusion graph has an edge for each of these,
and further ones for references that merging passes over: those beside a composition.
-/
namespace SchemaTypes

open Data Resolve

/-! ### Edges -/

namespace SchemaTable

variable {table : SchemaTable} {s : Schema} {target : String}

/-- Merging the node includes the target. -/
inductive Merges (table : SchemaTable) : Schema → (target : String) → Prop
  | own {s : Schema} {target : String} : s.hasComposition = false → s.properties = none →
    s.facets.reference.bind table.resolvePointer = some target → Merges table s target
  | nested {s m : Schema} {target : String} : m ∈ s.allOf → Merges table m target →
    Merges table s target

/-- Merging the node passes over a reference to the target, since it stands beside a composition. -/
inductive PassesOver (table : SchemaTable) : Schema → (target : String) → Prop
  | own {s : Schema} {target : String} : s.hasComposition = true → s.properties = none →
    s.facets.reference.bind table.resolvePointer = some target → PassesOver table s target
  | nested {s m : Schema} {target : String} : m ∈ s.allOf → PassesOver table m target →
    PassesOver table s target

/-- The record of the schema includes the target. -/
def Embeds (table : SchemaTable) (s : Schema) (target : String) : Prop :=
  (∃ m ∈ s.allOf, table.Merges m target) ∨
    s.isReference = true ∧ s.facets.reference.bind table.resolvePointer = some target

/-- A reference below `allOf` leads to the target, but is not merged. -/
def Hides (table : SchemaTable) (s : Schema) (target : String) : Prop :=
  ∃ m ∈ s.allOf, table.PassesOver m target

theorem mem_membersInclusions {ss : List Schema} :
    target ∈ table.membersInclusions ss ↔ ∃ m ∈ ss, target ∈ table.memberInclusions m := by
  induction ss with
  | nil => simp [membersInclusions]
  | cons m rest ih => simp [membersInclusions, ih]

theorem mem_memberInclusions_iff :
    target ∈ table.memberInclusions s ↔ table.Merges s target ∨ table.PassesOver s target := by
  induction s using Schema.induction with
  | step s ih =>
    have nested m (member : m ∈ s.allOf) := ih m (Schema.mem_children_of_allOf member)
    rw [mem_memberInclusions, mem_membersInclusions]
    constructor
    · rintro (⟨noProperties, designated⟩ | ⟨m, member, below⟩)
      · -- Beside a composition the reference is no inclusion, but it is an edge.
        cases composed : s.hasComposition with
        | false => exact Or.inl (.own composed noProperties designated)
        | true => exact Or.inr (.own composed noProperties designated)
      · exact ((nested m member).mp below).imp (.nested member) (.nested member)
    · rintro (merges | passes)
      · cases merges with
        | own _ noProperties designated => exact Or.inl ⟨noProperties, designated⟩
        | nested member below => exact Or.inr ⟨_, member, (nested _ member).mpr (Or.inl below)⟩
      · cases passes with
        | own _ noProperties designated => exact Or.inl ⟨noProperties, designated⟩
        | nested member below => exact Or.inr ⟨_, member, (nested _ member).mpr (Or.inr below)⟩

/-- The edges lead to what is embedded and to what is hidden. -/
theorem mem_inclusionsOf_iff :
    target ∈ table.inclusionsOf s ↔ table.Embeds s target ∨ table.Hides s target := by
  have reference :
      (s.hasComposition = false ∧ s.isBareReference = true) ↔ s.isReference = true := by
    simp [Schema.isReference]
  rw [mem_inclusionsOf, mem_membersInclusions, ← and_assoc, reference]
  simp only [mem_memberInclusions_iff, and_or_left, exists_or, Embeds, Hides]
  rw [or_comm, or_right_comm]

theorem mem_inclusionEdges_iff {name : String} :
    target ∈ table.inclusionEdges name ↔
      ∃ s, table.get? name = some s ∧ (table.Embeds s target ∨ table.Hides s target) := by
  unfold inclusionEdges
  cases table.get? name with
  | none => simp
  | some s => simp [mem_inclusionsOf_iff]

end SchemaTable

/-! ### By share and shape -/

/-- What a node with the share includes when it is merged. -/
def Share.Includes (table : SchemaTable) (s : Schema) (target : String) : Share → Prop
  | .nested => ∃ m ∈ s.allOf, table.Merges m target
  | .inclusion pointer => table.resolvePointer pointer = some target
  | .refused _ | .fields _ | .nothing => False

/-- What the record of a node with the shape includes. -/
def Shape.Includes (table : SchemaTable) (s : Schema) (target : String) : Shape → Prop
  | .merged => ∃ m ∈ s.allOf, table.Merges m target
  | .reference pointer => table.resolvePointer pointer = some target
  | .union _ | .fields _ | .emptyRecord | .array _ | .literals _ | .scalar _ | .any => False

theorem Schema.share_of_allOf {s : Schema} (given : s.allOf ≠ []) (type : Option NodeType) :
    s.share type = .nested := by
  unfold share
  cases found : s.allOf with
  | nil => exact absurd found given
  | cons => rfl

theorem Schema.not_hasComposition_iff {s : Schema} :
    s.hasComposition = false ↔ s.allOf = [] ∧ s.oneOf = [] ∧ s.anyOf = [] := by
  simp [hasComposition, and_assoc]

namespace SchemaTable

variable {scope : Scope} {table : SchemaTable} {s : Schema} {type : Option NodeType}
  {target : String}

theorem merges_iff (type : Option NodeType) :
    table.Merges s target ↔ (s.share type).Includes table s target := by
  constructor
  · intro merges
    cases merges with
    | own plain noProperties designated =>
      obtain ⟨noAllOf, noOneOf, noAnyOf⟩ := Schema.not_hasComposition_iff.mp plain
      obtain ⟨pointer, given, designated⟩ := Option.bind_eq_some_iff.mp designated
      have found : s.share type = .inclusion pointer := by
        simp [Schema.share, noAllOf, noOneOf, noAnyOf, noProperties, given]
      rw [found]
      exact designated
    | nested member below =>
      rw [Schema.share_of_allOf (List.ne_nil_of_mem member)]
      exact ⟨_, member, below⟩
  · unfold Schema.share
    split
    · rintro ⟨m, member, below⟩
      exact .nested member below
    · exact False.elim
    · exact False.elim
    · exact False.elim
    next noAllOf noOneOf noAnyOf noProperties given =>
      intro designated
      exact .own (Schema.not_hasComposition_iff.mpr ⟨noAllOf, noOneOf, noAnyOf⟩) noProperties
        (by rwa [given])
    · split <;> exact False.elim

theorem embeds_iff (named : scope.nodeType s.facets = .ok type) :
    table.Embeds s target ↔ (s.shape type).Includes table s target := by
  have byReference := Scope.shape_eq_reference_iff named
  constructor
  · rintro (⟨m, member, merges⟩ | ⟨isReference, designated⟩)
    · rw [Schema.shape_of_allOf (List.ne_nil_of_mem member)]
      exact ⟨m, member, merges⟩
    · obtain ⟨pointer, found⟩ := byReference.mpr isReference
      rw [(Schema.shape_eq_reference found).2.2.1] at designated
      rw [found]
      exact designated
  · intro included
    cases found : s.shape type with
    | merged =>
      rw [found] at included
      exact Or.inl included
    | reference pointer =>
      rw [found] at included
      refine Or.inr ⟨byReference.mp ⟨pointer, found⟩, ?_⟩
      rw [(Schema.shape_eq_reference found).2.2.1]
      exact included
    | _ =>
      rw [found] at included
      exact included.elim

end SchemaTable

/-! ### Inclusions of merged records -/

theorem inclusion_mem_pushMember {members : List Member} {m : Member} {target : String} :
    .inclusion target ∈ pushMember members m ↔
      .inclusion target ∈ members ∨ m = .inclusion target := by
  constructor
  · exact fun pushed => (mem_pushMember pushed).imp_right Eq.symm
  · unfold pushMember
    split
    next repeated =>
      rintro (old | rfl)
      · exact old
      · exact List.contains_iff_mem.mp repeated
    next =>
      rintro (old | rfl)
      · exact List.mem_append_left _ old
      · exact List.mem_append_right _ List.mem_cons_self

/-- Merging loses no inclusion. -/
theorem inclusion_mem_pushMembers {members new : List Member} {target : String} :
    .inclusion target ∈ pushMembers members new ↔
      .inclusion target ∈ members ∨ .inclusion target ∈ new := by
  induction new generalizing members with
  | nil => simp [pushMembers]
  | cons m rest ih =>
    have step : pushMembers members (m :: rest) = pushMembers (pushMember members m) rest := rfl
    rw [step, ih, inclusion_mem_pushMember, List.mem_cons, or_assoc]
    simp only [eq_comm]

namespace Scope

variable {scope : Scope} {declaring : Bool} {s : Schema} {typeName target : String}
  {before after : ResolveState} {ms : List Member}

/-- Properties become fields. -/
theorem inclusion_not_mem_resolveFields {ps : List (String × Schema)} {required : List String}
    (returned : Returns (scope.resolveFields ps required typeName) before ms after) :
    Member.inclusion target ∉ ms := by
  induction ps generalizing before ms with
  | nil =>
    obtain ⟨rfl, -⟩ := resolveFields_nil.mp returned
    exact List.not_mem_nil
  | cons p rest ih =>
    obtain ⟨t, mid, fields, -, later, rfl⟩ := resolveFields_cons.mp returned
    simpa using ih later

theorem mem_mergeMembers_iff {ss : List Schema} {merged : List Member}
    (members : ∀ m ∈ ss, ∀ before parts after,
      Returns (scope.memberParts declaring m typeName) before parts after →
      (.inclusion target ∈ parts ↔ scope.table.Merges m target))
    (returned : Returns (scope.mergeMembers declaring ss typeName merged) before ms after) :
    .inclusion target ∈ ms ↔
      .inclusion target ∈ merged ∨ ∃ m ∈ ss, scope.table.Merges m target := by
  induction ss generalizing before merged with
  | nil =>
    obtain ⟨rfl, -⟩ := mergeMembers_nil.mp returned
    simp
  | cons m rest ih =>
    obtain ⟨parts, mid, first, later⟩ := mergeMembers_cons.mp returned
    have here := members m List.mem_cons_self _ _ _ first
    rw [ih (fun r inside => members r (List.mem_cons_of_mem _ inside)) later,
      inclusion_mem_pushMembers, here, or_assoc]
    simp

private theorem mem_flatten_iff_of_members
    (members : ∀ m ∈ s.allOf, ∀ before parts after,
      Returns (scope.memberParts declaring m typeName) before parts after →
      (.inclusion target ∈ parts ↔ scope.table.Merges m target))
    (returned : Returns (scope.flatten declaring s typeName) before ms after) :
    .inclusion target ∈ ms ↔ ∃ m ∈ s.allOf, scope.table.Merges m target := by
  obtain ⟨merged, mid, first, last⟩ := flatten_returns.mp returned
  have nested := mem_mergeMembers_iff members first
  rcases last with ⟨-, rfl, -⟩ | ⟨ps, fields, -, own, rfl⟩
  · simpa using nested
  · -- The node's own properties come last and add fields only.
    rw [inclusion_mem_pushMembers, nested]
    simp [inclusion_not_mem_resolveFields own]

/-- A member of `allOf` contributes exactly the inclusions that merging it gives. -/
theorem mem_memberParts_iff
    (returned : Returns (scope.memberParts declaring s typeName) before ms after) :
    .inclusion target ∈ ms ↔ scope.table.Merges s target := by
  induction s using Schema.induction generalizing before ms after with
  | step s ih =>
    rw [memberParts_eq, returns_bind] at returned
    obtain ⟨type, mid, -, last⟩ := returned
    rw [SchemaTable.merges_iff type]
    cases found : s.share type with
    | nested =>
      rw [found] at last
      have members m (inside : m ∈ s.allOf) before parts after
          (returned : Returns (scope.memberParts declaring m typeName) before parts after) :=
        ih m (Schema.mem_children_of_allOf inside) returned
      exact mem_flatten_iff_of_members members last
    | refused kind =>
      rw [found] at last
      exact absurd last returns_throw
    | fields ps =>
      rw [found] at last
      exact iff_of_false (inclusion_not_mem_resolveFields last) id
    | inclusion pointer =>
      rw [found, partsOfShare, returns_bind] at last
      obtain ⟨name, state, first, last⟩ := last
      have designated := (referenceTarget_returns.mp first).1
      -- Checked or not, the only contribution is the inclusion.
      have single : ms = [.inclusion name] := by
        cases declaring with
        | false => exact (returns_pure.mp last).1.symm
        | true =>
          obtain ⟨_, _, -, last⟩ := returns_bind.mp last
          exact (returns_pure.mp last).1.symm
      simp [single, Share.Includes, designated, eq_comm]
    | nothing =>
      rw [found] at last
      obtain ⟨rfl, -⟩ := returns_pure.mp last
      exact iff_of_false List.not_mem_nil id

theorem mem_flatten_iff (returned : Returns (scope.flatten declaring s typeName) before ms after) :
    .inclusion target ∈ ms ↔ ∃ m ∈ s.allOf, scope.table.Merges m target :=
  mem_flatten_iff_of_members (fun _ _ _ _ _ => mem_memberParts_iff) returned

/-! ### Records of schemas -/

/-- The members of the record that a schema stands for, whether or not its declaration stops at a
cycle: those of its inline type, or the inclusion in the place of a reference. -/
inductive RecordOf (scope : Scope) (s : Schema) : List Member → Prop
  | record {ms : List Member} {nullable : Bool} {before after : ResolveState} :
    Returns (scope.resolve s scope.schema) before (.record ms nullable) after → RecordOf scope s ms
  | reference {target : String} {nullable : Bool} {before after : ResolveState} :
    s.isReference = true →
    Returns (scope.resolve s scope.schema) before (.reference target nullable) after →
    RecordOf scope s [.inclusion target]

/-- The record of a schema includes exactly what the schema embeds. -/
theorem RecordOf.mem_iff (record : scope.RecordOf s ms) :
    .inclusion target ∈ ms ↔ scope.table.Embeds s target := by
  cases record with
  | record returned =>
    rw [resolve_eq, returns_bind] at returned
    obtain ⟨type, mid, first, last⟩ := returned
    obtain ⟨named, -⟩ := returns_lift.mp first
    rw [SchemaTable.embeds_iff named]
    cases found : s.shape type with
    | merged =>
      rw [found] at last
      obtain ⟨members, state, flattened, last⟩ := returns_bind.mp last
      obtain ⟨same, -⟩ := returns_pure.mp last
      cases same
      exact mem_flatten_iff flattened
    | fields ps =>
      rw [found] at last
      obtain ⟨members, state, resolved, last⟩ := returns_bind.mp last
      obtain ⟨same, -⟩ := returns_pure.mp last
      cases same
      exact iff_of_false (inclusion_not_mem_resolveFields resolved) id
    | emptyRecord =>
      rw [found] at last
      obtain ⟨same, -⟩ := returns_pure.mp last
      cases same
      exact iff_of_false List.not_mem_nil id
    | union | reference | array | literals | scalar | any =>
      -- No other shape makes a record.
      have typed := typeOf_of_returns last
      rw [found] at typed
      cases typed
  | reference isReference returned =>
    rw [resolve_eq, returns_bind] at returned
    obtain ⟨type, mid, first, last⟩ := returned
    obtain ⟨named, -⟩ := returns_lift.mp first
    obtain ⟨pointer, found⟩ := (shape_eq_reference_iff named).mpr isReference
    rw [found] at last
    obtain ⟨name, state, looked, last⟩ := returns_bind.mp last
    obtain ⟨same, -⟩ := returns_pure.mp last
    cases same
    have designated := (referenceTarget_returns.mp looked).1
    rw [SchemaTable.embeds_iff named, found]
    simp [Shape.Includes, designated, eq_comm]

/-- What a schema is declared as is its record. -/
theorem recordOf_of_declare {description : Option String}
    (returned : Returns (scope.declare s) before (.declared (.record scope.schema ms description))
      after) :
    scope.RecordOf s ms := by
  rw [declare_eq, returns_bind] at returned
  obtain ⟨type, mid, first, last⟩ := returned
  obtain ⟨named, rfl⟩ := returns_lift.mp first
  -- The inline type goes on from the same shape.
  have inline {t : TypeExpr} {state : ResolveState}
      (shaped : Returns (scope.typeOfShape s scope.schema (s.shape type)) before t state) :
      Returns (scope.resolve s scope.schema) before t state := by
    rw [resolve_eq]
    exact returns_bind.mpr ⟨type, before, first, shaped⟩
  cases found : s.shape type with
  | merged =>
    rw [found] at last inline
    obtain ⟨members, state, flattened, last⟩ := returns_bind.mp last
    obtain ⟨same, rfl⟩ := returns_pure.mp last
    cases same
    have unchecked : Returns (scope.flatten false s scope.schema) before ms state := by
      rcases flatten_guards s scope.schema before with ⟨_, _, _, -, stopped⟩ | same
      · cases stopped.symm.trans flattened
      · exact same.symm.trans flattened
    exact .record (inline (returns_bind.mpr ⟨ms, state, unchecked, returns_pure.mpr ⟨rfl, rfl⟩⟩))
  | fields ps =>
    rw [found] at last inline
    obtain ⟨members, state, resolved, last⟩ := returns_bind.mp last
    obtain ⟨same, rfl⟩ := returns_pure.mp last
    cases same
    exact .record (inline (returns_bind.mpr ⟨ms, state, resolved, returns_pure.mpr ⟨rfl, rfl⟩⟩))
  | emptyRecord =>
    rw [found] at last inline
    obtain ⟨same, rfl⟩ := returns_pure.mp last
    cases same
    exact .record (inline (returns_pure.mpr ⟨rfl, rfl⟩))
  | reference pointer =>
    rw [found] at last inline
    obtain ⟨target, state, looked, last⟩ := returns_bind.mp last
    obtain ⟨_, _, -, last⟩ := returns_bind.mp last
    obtain ⟨same, -⟩ := returns_pure.mp last
    cases same
    have isReference := (shape_eq_reference_iff named).mp ⟨pointer, found⟩
    exact .reference isReference
      (inline (returns_bind.mpr ⟨target, state, looked, returns_pure.mpr ⟨rfl, rfl⟩⟩))
  | union | array | literals | scalar | any =>
    have kind := outcomeOf_of_returns last
    rw [found] at kind
    cases kind with
    | record isRecord => cases isRecord

end Scope
end SchemaTypes
