import SchemaTypes.Proofs.Resolve.Embedding

/-!
# The grammar of schema nodes

Which nodes have a type, and which can be merged into a record, told from the parts of the node
alone. One part decides on each node, and what that part asks for is what its shape or its share
asks for.
-/
namespace SchemaTypes

open Resolve

/-- The type, if one is given, is a word with a meaning. -/
def Facets.KnownType (f : Facets) : Prop :=
  ∀ word ∈ f.type, word ∈ ["string", "integer", "number", "boolean", "object", "array"]

/-- The literals that a string enum is made of. -/
def Json.IsLiteral (l : Json) : Prop :=
  l = .null ∨ ∃ value, l = .text value

namespace SchemaTable

mutual

/-- The nodes with a type. The cases are in the order in which the parts of a node decide. -/
inductive Acceptable (table : SchemaTable) : Schema → Prop
  | merged {s : Schema} : s.facets.KnownType → s.allOf ≠ [] →
    (∀ m ∈ s.allOf, Mergeable table m) →
    (∀ ps ∈ s.properties, ∀ p ∈ ps, Acceptable table p.2) → Acceptable table s
  | oneOf {s : Schema} : s.facets.KnownType → s.allOf = [] → s.oneOf ≠ [] →
    (∀ a ∈ s.oneOf, Acceptable table a) → Acceptable table s
  | anyOf {s : Schema} : s.facets.KnownType → s.allOf = [] → s.oneOf = [] → s.anyOf ≠ [] →
    (∀ a ∈ s.anyOf, Acceptable table a) → Acceptable table s
  | fields {s : Schema} {ps : List (String × Schema)} : s.facets.KnownType →
    s.hasComposition = false → s.properties = some ps →
    (∀ p ∈ ps, Acceptable table p.2) → Acceptable table s
  | object {s : Schema} : s.facets.type = none ∨ s.facets.type = some "object" →
    s.hasComposition = false → s.properties = none →
    (∀ pointer ∈ s.facets.reference, ∃ target, table.resolvePointer pointer = some target) →
    Acceptable table s
  | array {s : Schema} : s.facets.type = some "array" →
    s.hasComposition = false → s.properties = none →
    (∀ items ∈ s.items, Acceptable table items) → Acceptable table s
  | string {s : Schema} : s.facets.type = some "string" →
    s.hasComposition = false → s.properties = none →
    (∀ l ∈ s.facets.literals, l.IsLiteral) → Acceptable table s
  | scalar {s : Schema} {word : String} : s.facets.type = some word →
    word ∈ ["integer", "number", "boolean"] →
    s.hasComposition = false → s.properties = none → Acceptable table s

/-- The nodes that can be members of `allOf`. -/
inductive Mergeable (table : SchemaTable) : Schema → Prop
  | nested {s : Schema} : s.facets.KnownType → s.allOf ≠ [] →
    (∀ m ∈ s.allOf, Mergeable table m) →
    (∀ ps ∈ s.properties, ∀ p ∈ ps, Acceptable table p.2) → Mergeable table s
  | fields {s : Schema} {ps : List (String × Schema)} : s.facets.KnownType →
    s.hasComposition = false → s.properties = some ps →
    (∀ p ∈ ps, Acceptable table p.2) → Mergeable table s
  | reference {s : Schema} {pointer target : String} : s.facets.KnownType →
    s.hasComposition = false → s.properties = none →
    s.facets.reference = some pointer → table.resolvePointer pointer = some target →
    Mergeable table s
  | nothing {s : Schema} : s.facets.type = none ∨ s.facets.type = some "object" →
    s.hasComposition = false → s.properties = none → s.facets.reference = none →
    Mergeable table s

end

end SchemaTable

/-! ### Types and literals -/

/-- The word that each type stands for. -/
inductive Facets.Names (f : Facets) : Option NodeType → Prop
  | untyped : f.type = none → f.Names none
  | object : f.type = some "object" → f.Names (some .object)
  | array : f.type = some "array" → f.Names (some .array)
  | string : f.type = some "string" → f.Names (some (.scalar .string))
  | scalar {word : String} {kind : ScalarKind} : f.type = some word →
    word ∈ ["integer", "number", "boolean"] → kind ≠ .string → f.Names (some (.scalar kind))

namespace Scope

variable {scope : Scope} {f : Facets} {type : Option NodeType}

theorem names_of_nodeType (named : scope.nodeType f = .ok type) : f.Names type := by
  cases type with
  | none => exact .untyped (nodeType_eq_none named)
  | some kind =>
    obtain ⟨word, typed, meant⟩ := nodeType_eq_some named
    unfold NodeType.ofWord? at meant
    split at meant
    · cases meant; exact .string typed
    · cases meant; exact .scalar typed (by simp) nofun
    · cases meant
      refine .scalar typed (by simp) ?_
      split <;> nofun
    · cases meant; exact .scalar typed (by simp) nofun
    · cases meant; exact .object typed
    · cases meant; exact .array typed
    · cases meant

theorem knownType_of_nodeType (named : scope.nodeType f = .ok type) : f.KnownType := by
  cases names_of_nodeType named with
  | untyped typed => simp [Facets.KnownType, typed]
  | object typed => simp [Facets.KnownType, typed]
  | array typed => simp [Facets.KnownType, typed]
  | string typed => simp [Facets.KnownType, typed]
  | scalar typed listed =>
    simp only [List.mem_cons, List.not_mem_nil, or_false] at listed
    rcases listed with rfl | rfl | rfl <;> simp [Facets.KnownType, typed]

/-- A type is known exactly if it names one. -/
theorem exists_nodeType_iff : (∃ type, scope.nodeType f = .ok type) ↔ f.KnownType := by
  refine ⟨fun ⟨_, named⟩ => knownType_of_nodeType named, fun known => ?_⟩
  unfold nodeType
  cases typed : f.type with
  | none => exact ⟨none, rfl⟩
  | some word =>
    have meant : ∃ type, NodeType.ofWord? word f.format = some type := by
      have listed := known word typed
      simp only [List.mem_cons, List.not_mem_nil, or_false] at listed
      rcases listed with rfl | rfl | rfl | rfl | rfl | rfl <;> exact ⟨_, rfl⟩
    obtain ⟨type, meant⟩ := meant
    exact ⟨some type, by simp [meant]⟩

/-- The literals of a string enum are read exactly if each one is a text or null. -/
theorem exists_enumLiterals_iff {ls : List Json} :
    (∃ read, scope.enumLiterals ls = .ok read) ↔ ∀ l ∈ ls, l.IsLiteral := by
  induction ls with
  | nil => simp [enumLiterals]
  | cons l rest ih =>
    rw [List.forall_mem_cons, ← ih]
    cases l with
    | text _ | null =>
      constructor
      · rintro ⟨read, given⟩
        rw [enumLiterals] at given
        obtain ⟨later, first, -⟩ := bind_eq_ok.mp given
        exact ⟨by simp [Json.IsLiteral], later, first⟩
      · rintro ⟨-, later, first⟩
        rw [enumLiterals, first]
        exact ⟨_, rfl⟩
    | _ => simp [enumLiterals, Json.IsLiteral]

end Scope

/-! ### By shape and share -/

/-- What the shape asks of a node with it. -/
def Shape.Accepted (table : SchemaTable) (s : Schema) : Shape → Prop
  | .merged => (∀ m ∈ s.allOf, table.Mergeable m) ∧
      ∀ ps ∈ s.properties, ∀ p ∈ ps, table.Acceptable p.2
  | .union ss => ∀ a ∈ ss, table.Acceptable a
  | .fields ps => ∀ p ∈ ps, table.Acceptable p.2
  | .reference pointer => ∃ target, table.resolvePointer pointer = some target
  | .array items => ∀ i ∈ items, table.Acceptable i
  | .literals ls => ∀ l ∈ ls, l.IsLiteral
  | .emptyRecord | .scalar _ | .any => True

/-- What the share asks of a member with it. -/
def Share.Accepted (table : SchemaTable) (s : Schema) : Share → Prop
  | .nested => (∀ m ∈ s.allOf, table.Mergeable m) ∧
      ∀ ps ∈ s.properties, ∀ p ∈ ps, table.Acceptable p.2
  | .refused _ => False
  | .fields ps => ∀ p ∈ ps, table.Acceptable p.2
  | .inclusion pointer => ∃ target, table.resolvePointer pointer = some target
  | .nothing => True

namespace SchemaTable

variable {scope : Scope} {table : SchemaTable} {s : Schema} {type : Option NodeType}

theorem Acceptable.knownType (acceptable : table.Acceptable s) : s.facets.KnownType := by
  cases acceptable with
  | merged known => exact known
  | oneOf known => exact known
  | anyOf known => exact known
  | fields known => exact known
  | object typed => rcases typed with typed | typed <;> simp [Facets.KnownType, typed]
  | array typed => simp [Facets.KnownType, typed]
  | string typed => simp [Facets.KnownType, typed]
  | scalar typed listed =>
    simp only [List.mem_cons, List.not_mem_nil, or_false] at listed
    rcases listed with rfl | rfl | rfl <;> simp [Facets.KnownType, typed]

theorem Mergeable.knownType (mergeable : table.Mergeable s) : s.facets.KnownType := by
  cases mergeable with
  | nested known => exact known
  | fields known => exact known
  | reference known => exact known
  | nothing typed => rcases typed with typed | typed <;> simp [Facets.KnownType, typed]

theorem accepted_of_acceptable (named : scope.nodeType s.facets = .ok type)
    (acceptable : table.Acceptable s) : (s.shape type).Accepted table s := by
  cases acceptable with
  | merged _ given members own =>
    rw [Schema.shape_of_allOf given]
    exact ⟨members, own⟩
  | oneOf _ noAllOf given alternatives =>
    obtain ⟨a, as, found⟩ := List.exists_cons_of_ne_nil given
    have shaped : s.shape type = .union s.oneOf := by simp [Schema.shape, noAllOf, found]
    rw [shaped]
    exact alternatives
  | anyOf _ noAllOf noOneOf given alternatives =>
    obtain ⟨a, as, found⟩ := List.exists_cons_of_ne_nil given
    have shaped : s.shape type = .union s.anyOf := by simp [Schema.shape, noAllOf, noOneOf, found]
    rw [shaped]
    exact alternatives
  | fields _ plain given properties =>
    obtain ⟨noAllOf, noOneOf, noAnyOf⟩ := Schema.not_hasComposition_iff.mp plain
    simp only [Schema.shape, noAllOf, noOneOf, noAnyOf, given]
    exact properties
  | object typed plain noProperties designates =>
    rw [Schema.shape_eq_ofType plain noProperties]
    -- Either type leaves the decision to the reference.
    have meant : type = none ∨ type = some .object := by
      rcases typed with typed | typed
      · exact Or.inl (by simpa [Scope.nodeType, typed, eq_comm] using named)
      · exact Or.inr (by simpa [Scope.nodeType, typed, NodeType.ofWord?, eq_comm] using named)
    rcases meant with rfl | rfl
    all_goals
      unfold Shape.ofType
      cases given : s.facets.reference with
      | none => trivial
      | some pointer => exact designates pointer given
  | array typed plain noProperties items =>
    rw [Schema.shape_eq_ofType plain noProperties]
    obtain rfl : some .array = type := by
      simpa [Scope.nodeType, typed, NodeType.ofWord?] using named
    exact items
  | string typed plain noProperties literals =>
    rw [Schema.shape_eq_ofType plain noProperties]
    obtain rfl : some (.scalar .string) = type := by
      simpa [Scope.nodeType, typed, NodeType.ofWord?] using named
    unfold Shape.ofType
    cases given : s.facets.literals with
    | nil => trivial
    | cons l ls =>
      rw [given] at literals
      exact literals
  | scalar typed listed plain noProperties =>
    rw [Schema.shape_eq_ofType plain noProperties]
    simp only [List.mem_cons, List.not_mem_nil, or_false] at listed
    rcases listed with rfl | rfl | rfl
    all_goals
      simp only [Scope.nodeType, typed, NodeType.ofWord?, Except.ok.injEq] at named
      subst named
    · trivial
    · split <;> trivial
    · trivial

theorem acceptable_of_accepted (named : scope.nodeType s.facets = .ok type)
    (accepted : (s.shape type).Accepted table s) : table.Acceptable s := by
  have known := Scope.knownType_of_nodeType named
  unfold Schema.shape at accepted
  split at accepted
  next given => exact .merged known (by simp [given]) accepted.1 accepted.2
  next noAllOf given => exact .oneOf known noAllOf (by simp [given]) (given ▸ accepted)
  next noAllOf noOneOf given =>
    exact .anyOf known noAllOf noOneOf (by simp [given]) (given ▸ accepted)
  next noAllOf noOneOf noAnyOf given =>
    have composed := Schema.not_hasComposition_iff.mpr ⟨noAllOf, noOneOf, noAnyOf⟩
    exact .fields known composed given accepted
  next noAllOf noOneOf noAnyOf noProperties =>
    have plain := Schema.not_hasComposition_iff.mpr ⟨noAllOf, noOneOf, noAnyOf⟩
    -- The type is what is left to decide.
    cases Scope.names_of_nodeType named with
    | untyped typed =>
      refine .object (Or.inl typed) plain noProperties fun pointer given => ?_
      rw [Shape.ofType, Option.mem_def.mp given] at accepted
      exact accepted
    | object typed =>
      refine .object (Or.inr typed) plain noProperties fun pointer given => ?_
      rw [Shape.ofType, Option.mem_def.mp given] at accepted
      exact accepted
    | array typed => exact .array typed plain noProperties accepted
    | string typed =>
      refine .string typed plain noProperties ?_
      rw [Shape.ofType] at accepted
      cases given : s.facets.literals with
      | nil => simp
      | cons l ls =>
        rw [given] at accepted
        exact accepted
    | scalar typed listed => exact .scalar typed listed plain noProperties

/-- A node has a type exactly if it is what its shape asks for. -/
theorem acceptable_iff (named : scope.nodeType s.facets = .ok type) :
    table.Acceptable s ↔ (s.shape type).Accepted table s :=
  ⟨accepted_of_acceptable named, acceptable_of_accepted named⟩

theorem mergeable_iff (named : scope.nodeType s.facets = .ok type) :
    table.Mergeable s ↔ (s.share type).Accepted table s := by
  have known := Scope.knownType_of_nodeType named
  constructor
  · intro mergeable
    cases mergeable with
    | nested _ given members own =>
      rw [Schema.share_of_allOf given]
      exact ⟨members, own⟩
    | fields _ plain given properties =>
      obtain ⟨noAllOf, noOneOf, noAnyOf⟩ := Schema.not_hasComposition_iff.mp plain
      simp only [Schema.share, noAllOf, noOneOf, noAnyOf, given]
      exact properties
    | reference _ plain noProperties given designated =>
      obtain ⟨noAllOf, noOneOf, noAnyOf⟩ := Schema.not_hasComposition_iff.mp plain
      simp only [Schema.share, noAllOf, noOneOf, noAnyOf, noProperties, given]
      exact ⟨_, designated⟩
    | nothing typed plain noProperties noReference =>
      obtain ⟨noAllOf, noOneOf, noAnyOf⟩ := Schema.not_hasComposition_iff.mp plain
      have meant : type = none ∨ type = some .object := by
        rcases typed with typed | typed
        · exact Or.inl (by simpa [Scope.nodeType, typed, eq_comm] using named)
        · exact Or.inr (by simpa [Scope.nodeType, typed, NodeType.ofWord?, eq_comm] using named)
      have shared : s.share type = .nothing := by
        rcases meant with rfl | rfl <;>
          simp [Schema.share, noAllOf, noOneOf, noAnyOf, noProperties, noReference]
      rw [shared]
      trivial
  · intro accepted
    unfold Schema.share at accepted
    split at accepted
    next given => exact .nested known (by simp [given]) accepted.1 accepted.2
    · exact accepted.elim
    · exact accepted.elim
    next noAllOf noOneOf noAnyOf given =>
      exact .fields known (Schema.not_hasComposition_iff.mpr ⟨noAllOf, noOneOf, noAnyOf⟩) given
        accepted
    next noAllOf noOneOf noAnyOf noProperties given =>
      obtain ⟨target, designated⟩ := accepted
      exact .reference known (Schema.not_hasComposition_iff.mpr ⟨noAllOf, noOneOf, noAnyOf⟩)
        noProperties given designated
    next noAllOf noOneOf noAnyOf noProperties noReference =>
      have plain := Schema.not_hasComposition_iff.mpr ⟨noAllOf, noOneOf, noAnyOf⟩
      refine .nothing ?_ plain noProperties noReference
      cases Scope.names_of_nodeType named with
      | untyped typed => exact Or.inl typed
      | object typed => exact Or.inr typed
      | array typed => simp [typed, Share.Accepted] at accepted
      | string typed => simp [typed, Share.Accepted] at accepted
      | scalar typed => simp [typed, Share.Accepted] at accepted

end SchemaTable
end SchemaTypes
