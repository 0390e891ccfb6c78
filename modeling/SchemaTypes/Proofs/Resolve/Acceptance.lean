import SchemaTypes.Proofs.Resolve.Grammar

/-!
# What resolution checks

Whether a resolution succeeds depends on nothing but the nodes that it goes through: each of them
has to follow the grammar, and no checked inclusion may lead back to the schema.
-/
namespace SchemaTypes.Scope

open Naming Resolve

variable {α β : Type} {scope : Scope} {s : Schema}

/-- From whatever state, the computation succeeds exactly if what it goes through is accepted and
none of its inclusions leads back to the schema; a cycle that it reports starts with one that
does. -/
structure Checks (scope : Scope) (m : Resolve α) (accepted : Prop) (included : String → Prop) :
    Prop where
  returns_iff (before : ResolveState) : (∃ a after, Returns m before a after) ↔
    accepted ∧ ∀ t, included t → scope.table.inclusionPath? t scope.schema = none
  stops {before after : ResolveState} {chain : List String} :
    runFrom m before = (.error (.cyclicInclusion chain), after) →
    ∃ t path, included t ∧ scope.table.inclusionPath? t scope.schema = some path ∧
      chain = scope.schema :: path

namespace Checks

variable {accepted accepted' : Prop} {included included' : String → Prop}

/-! ### Computations -/

theorem total {m : Resolve α} (returns : ∀ before, ∃ a after, Returns m before a after) :
    scope.Checks m True fun _ => False := by
  refine ⟨fun before => ?_, fun {before _ _} stopped => ?_⟩
  · simpa using returns before
  · obtain ⟨a, after, returned⟩ := returns before
    cases stopped.symm.trans returned

theorem pure (a : α) : scope.Checks (pure a) True fun _ => False :=
  total fun before => ⟨a, before, rfl⟩

theorem throw {e : Error} (other : ∀ chain, e ≠ .cyclicInclusion chain) :
    scope.Checks (throw e : Resolve α) False included := by
  refine ⟨fun before => by simp, fun {before after chain} stopped => ?_⟩
  rw [runFrom_throw] at stopped
  cases stopped
  exact absurd rfl (other chain)

theorem lift {x : Except Error α} (other : ∀ chain, x ≠ .error (.cyclicInclusion chain)) :
    scope.Checks (liftM x) (∃ a, x = .ok a) fun _ => False := by
  refine ⟨fun before => by simp, fun {before after chain} stopped => ?_⟩
  exact absurd (congrArg Prod.fst stopped) (other chain)

theorem check (target : String) :
    scope.Checks (liftM (scope.checkInclusion target)) True (· = target) := by
  unfold checkInclusion
  cases found : scope.table.inclusionPath? target scope.schema with
  | none =>
    refine ⟨fun before => by simp [found], fun {before after chain} stopped => ?_⟩
    cases stopped
  | some path =>
    refine ⟨fun before => by simp [found], fun {before after chain} stopped => ?_⟩
    cases stopped
    exact ⟨target, path, rfl, found, rfl⟩

/-- A sequence checks what its parts check. -/
theorem bind {m : Resolve α} {f : α → Resolve β} (first : scope.Checks m accepted included)
    (rest : ∀ a before after, Returns m before a after → scope.Checks (f a) accepted' included') :
    scope.Checks (m >>= f) (accepted ∧ accepted') fun t => included t ∨ included' t := by
  constructor
  · intro before
    constructor
    · rintro ⟨b, after, returned⟩
      obtain ⟨a, mid, returnedFirst, returnedRest⟩ := returns_bind.mp returned
      obtain ⟨ok, noPath⟩ := (first.returns_iff before).mp ⟨a, mid, returnedFirst⟩
      obtain ⟨ok', noPath'⟩ :=
        ((rest a before mid returnedFirst).returns_iff mid).mp ⟨b, after, returnedRest⟩
      exact ⟨⟨ok, ok'⟩, fun t inside => inside.elim (noPath t) (noPath' t)⟩
    · rintro ⟨⟨ok, ok'⟩, noPath⟩
      obtain ⟨a, mid, returnedFirst⟩ :=
        (first.returns_iff before).mpr ⟨ok, fun t inside => noPath t (Or.inl inside)⟩
      obtain ⟨b, after, returnedRest⟩ := ((rest a before mid returnedFirst).returns_iff mid).mpr
        ⟨ok', fun t inside => noPath t (Or.inr inside)⟩
      exact ⟨b, after, returns_bind.mpr ⟨a, mid, returnedFirst, returnedRest⟩⟩
  · intro before after chain stopped
    -- The cycle is reported by the part that fails.
    rcases runFrom_bind_eq_error.mp stopped with here | ⟨a, mid, returned, there⟩
    · obtain ⟨t, path, inside, found⟩ := first.stops here
      exact ⟨t, path, Or.inl inside, found⟩
    · obtain ⟨t, path, inside, found⟩ := (rest a before mid returned).stops there
      exact ⟨t, path, Or.inr inside, found⟩

theorem congr {m : Resolve α} (checks : scope.Checks m accepted included)
    (same : accepted ↔ accepted') (sameIncluded : ∀ t, included t ↔ included' t) :
    scope.Checks m accepted' included' := by
  obtain rfl : accepted = accepted' := propext same
  obtain rfl : included = included' := funext fun t => propext (sameIncluded t)
  exact checks

/-- What cannot fail may follow. -/
theorem bind_total {m : Resolve α} {f : α → Resolve β} (checks : scope.Checks m accepted included)
    (rest : ∀ a, scope.Checks (f a) True fun _ => False) :
    scope.Checks (m >>= f) accepted included :=
  (checks.bind fun a _ _ _ => rest a).congr (iff_of_eq (and_true _)) fun _ =>
    iff_of_eq (or_false _)

theorem map {m : Resolve α} (checks : scope.Checks m accepted included) (f : α → β) :
    scope.Checks (m >>= fun a => Pure.pure (f a)) accepted included :=
  checks.bind_total fun a => pure (f a)

end Checks

/-! ### Types, references and literals -/

theorem checks_nodeType (f : Facets) :
    scope.Checks (liftM (scope.nodeType f)) f.KnownType fun _ => False := by
  refine (Checks.lift fun chain => ?_).congr exists_nodeType_iff fun _ => Iff.rfl
  unfold nodeType
  split
  · nofun
  · split <;> nofun

/-- A node is accepted only if its type is known. -/
theorem checks_node {f : Option NodeType → Resolve α} {accepted : Prop} {included : String → Prop}
    (known : accepted → s.facets.KnownType)
    (rest : ∀ type, scope.nodeType s.facets = .ok type → scope.Checks (f type) accepted included) :
    scope.Checks (do f (← scope.nodeType s.facets)) accepted included := by
  have follows type before after
      (returned : Returns (liftM (scope.nodeType s.facets)) before type after) :=
    rest type (returns_lift.mp returned).1
  refine ((checks_nodeType s.facets).bind follows).congr ?_ (by simp)
  exact and_iff_right_of_imp known

theorem checks_referenceTarget (pointer : String) :
    scope.Checks (scope.referenceTarget pointer)
      (∃ target, scope.table.resolvePointer pointer = some target) fun _ => False := by
  unfold referenceTarget
  cases scope.table.resolvePointer pointer with
  | none => exact Checks.congr (.throw nofun) (by simp) fun _ => Iff.rfl
  | some name => exact (Checks.total fun before => ⟨_, _, rfl⟩).congr (by simp) fun _ => Iff.rfl

/-- What follows a reference goes on with its target. -/
theorem checks_refer {pointer : String} {f : String → Resolve β} {checked : Prop}
    (rest : ∀ target, scope.Checks (f target) True fun t => checked ∧ t = target) :
    scope.Checks (scope.referenceTarget pointer >>= f)
      (∃ target, scope.table.resolvePointer pointer = some target)
      fun t => checked ∧ scope.table.resolvePointer pointer = some t := by
  have follows target before after
      (returned : Returns (scope.referenceTarget pointer) before target after) :
      scope.Checks (f target) True
        fun t => checked ∧ scope.table.resolvePointer pointer = some t := by
    refine (rest target).congr Iff.rfl fun t => ?_
    rw [(referenceTarget_returns.mp returned).1, Option.some.injEq, eq_comm]
  exact ((checks_referenceTarget pointer).bind follows).congr (by simp) (by simp)

theorem enumLiterals_ne_cyclic (ls : List Json) (chain : List String) :
    scope.enumLiterals ls ≠ .error (.cyclicInclusion chain) := by
  intro stopped
  induction ls with
  | nil => cases stopped
  | cons l rest ih =>
    cases l with
    | text _ | null =>
      rw [enumLiterals] at stopped
      -- Only the literals that come later can fail.
      rcases bind_eq_error.mp stopped with later | ⟨read, -, done⟩
      · exact ih later
      · cases done
    | _ => cases stopped

theorem checks_enumLiterals (ls : List Json) :
    scope.Checks (liftM (scope.enumLiterals ls)) (∀ l ∈ ls, l.IsLiteral) fun _ => False :=
  (Checks.lift (enumLiterals_ne_cyclic ls)).congr exists_enumLiterals_iff fun _ => Iff.rfl

theorem checks_resolveEnum (literals : List Json) (nullable : Bool) (typeName : String) :
    scope.Checks (scope.resolveEnum literals nullable typeName) (∀ l ∈ literals, l.IsLiteral)
      fun _ => False := by
  refine (checks_enumLiterals literals).bind_total fun (values, null) => ?_
  cases values with
  | nil => exact .pure _
  | cons v vs => exact .total fun before => ⟨_, _, rfl⟩

theorem checks_declareEnum (literals : List Json) (description : Option String) :
    scope.Checks (scope.declareEnum literals description) (∀ l ∈ literals, l.IsLiteral)
      fun _ => False := by
  refine (checks_enumLiterals literals).bind_total fun (values, null) => ?_
  cases values with
  | nil => exact .pure _
  | cons v vs => exact .total fun before => ⟨_, _, rfl⟩

/-! ### Lists -/

theorem checks_resolveFields {ps : List (String × Schema)}
    (properties : ∀ p ∈ ps, ∀ typeName,
      scope.Checks (scope.resolve p.2 typeName) (scope.table.Acceptable p.2) fun _ => False)
    (required : List String) (typeName : String) :
    scope.Checks (scope.resolveFields ps required typeName)
      (∀ p ∈ ps, scope.table.Acceptable p.2) fun _ => False := by
  induction ps with
  | nil => exact (Checks.pure _).congr (by simp) fun _ => Iff.rfl
  | cons p rest ih =>
    obtain ⟨key, property⟩ := p
    have first := properties _ List.mem_cons_self (propertyTypeName typeName (Text.trim key))
    have later := ih fun q member => properties q (List.mem_cons_of_mem _ member)
    rw [resolveFields, List.forall_mem_cons]
    exact (first.bind fun type _ _ _ => later.map _).congr Iff.rfl (by simp)

theorem checks_resolveAlternatives {ss : List Schema}
    (alternatives : ∀ s ∈ ss, ∀ typeName,
      scope.Checks (scope.resolve s typeName) (scope.table.Acceptable s) fun _ => False)
    (typeName : String) (number : Nat) (types : List TypeExpr) :
    scope.Checks (scope.resolveAlternatives ss typeName number types)
      (∀ s ∈ ss, scope.table.Acceptable s) fun _ => False := by
  induction ss generalizing number types with
  | nil => exact (Checks.pure _).congr (by simp) fun _ => Iff.rfl
  | cons s rest ih =>
    have first := alternatives s List.mem_cons_self (typeName ++ "Variant" ++ toString number)
    have later type := ih (fun r member => alternatives r (List.mem_cons_of_mem _ member))
      (number + 1) (pushType types type)
    rw [resolveAlternatives, List.forall_mem_cons]
    exact (first.bind fun type _ _ _ => later type).congr Iff.rfl (by simp)

theorem checks_mergeMembers {declaring : Bool} {ss : List Schema}
    (members : ∀ m ∈ ss, ∀ typeName,
      scope.Checks (scope.memberParts declaring m typeName) (scope.table.Mergeable m)
        fun t => declaring = true ∧ scope.table.Merges m t)
    (typeName : String) (merged : List Member) :
    scope.Checks (scope.mergeMembers declaring ss typeName merged)
      (∀ m ∈ ss, scope.table.Mergeable m)
      fun t => declaring = true ∧ ∃ m ∈ ss, scope.table.Merges m t := by
  induction ss generalizing merged with
  | nil => exact (Checks.pure _).congr (by simp) (by simp)
  | cons m rest ih =>
    have first := members m List.mem_cons_self typeName
    have later parts := ih (fun r member => members r (List.mem_cons_of_mem _ member))
      (pushMembers merged parts)
    rw [mergeMembers, List.forall_mem_cons]
    refine (first.bind fun parts _ _ _ => later parts).congr Iff.rfl fun t => ?_
    simp [and_or_left]

/-! ### Nodes -/

section Nodes

variable {declaring : Bool} {type : Option NodeType}

theorem checks_flatten_of_children
    (resolves : ∀ c ∈ s.children, ∀ typeName,
      scope.Checks (scope.resolve c typeName) (scope.table.Acceptable c) fun _ => False)
    (contributes : ∀ c ∈ s.children, ∀ typeName,
      scope.Checks (scope.memberParts declaring c typeName) (scope.table.Mergeable c)
        fun t => declaring = true ∧ scope.table.Merges c t)
    (typeName : String) :
    scope.Checks (scope.flatten declaring s typeName)
      ((∀ m ∈ s.allOf, scope.table.Mergeable m) ∧
        ∀ ps ∈ s.properties, ∀ p ∈ ps, scope.table.Acceptable p.2)
      fun t => declaring = true ∧ ∃ m ∈ s.allOf, scope.table.Merges m t := by
  have merged := checks_mergeMembers
    (fun m member => contributes m (Schema.mem_children_of_allOf member)) typeName []
  unfold flatten
  cases given : s.properties with
  | none => exact (merged.bind_total fun _ => .pure _).congr (by simp) fun _ => Iff.rfl
  | some ps =>
    have fields := checks_resolveFields
      (fun p member => resolves p.2 (Schema.mem_children_of_property given member))
      s.facets.required typeName
    exact (merged.bind fun _ _ _ _ => fields.map _).congr (by simp) (by simp)

theorem checks_typeOfShape_of_children
    (resolves : ∀ c ∈ s.children, ∀ typeName,
      scope.Checks (scope.resolve c typeName) (scope.table.Acceptable c) fun _ => False)
    (contributes : ∀ c ∈ s.children, ∀ typeName,
      scope.Checks (scope.memberParts false c typeName) (scope.table.Mergeable c)
        fun t => false = true ∧ scope.table.Merges c t)
    (typeName : String) :
    scope.Checks (scope.typeOfShape s typeName (s.shape type))
      ((s.shape type).Accepted scope.table s) fun _ => False := by
  have parts : ∀ c ∈ (s.shape type).parts, ∀ typeName, _ :=
    fun c part => resolves c (Schema.mem_children_of_parts part)
  generalize s.shape type = shape at parts ⊢
  cases shape with
  | merged =>
    exact ((checks_flatten_of_children resolves contributes typeName).map _).congr Iff.rfl (by simp)
  | union ss => exact (checks_resolveAlternatives parts typeName 1 []).map _
  | fields ps =>
    have fields := checks_resolveFields
      (fun p member => parts p.2 (List.mem_map_of_mem member)) s.facets.required typeName
    exact fields.map _
  | reference pointer => exact (checks_referenceTarget pointer).bind_total fun _ => .pure _
  | array items =>
    cases items with
    | none => exact (Checks.pure _).congr (by simp [Shape.Accepted]) fun _ => Iff.rfl
    | some items =>
      have element := parts items (by simp [Shape.parts]) (typeName ++ "Item")
      exact (element.map _).congr (by simp [Shape.Accepted]) fun _ => Iff.rfl
  | literals literals => exact checks_resolveEnum literals s.isNullable typeName
  | emptyRecord => exact .pure _
  | scalar kind => exact .pure _
  | any => exact .pure _

theorem checks_partsOfShare_of_children
    (resolves : ∀ c ∈ s.children, ∀ typeName,
      scope.Checks (scope.resolve c typeName) (scope.table.Acceptable c) fun _ => False)
    (contributes : ∀ c ∈ s.children, ∀ typeName,
      scope.Checks (scope.memberParts declaring c typeName) (scope.table.Mergeable c)
        fun t => declaring = true ∧ scope.table.Merges c t)
    (typeName : String) :
    scope.Checks (scope.partsOfShare declaring s typeName (s.share type))
      ((s.share type).Accepted scope.table s)
      fun t => declaring = true ∧ (s.share type).Includes scope.table s t := by
  cases found : s.share type with
  | nested => exact checks_flatten_of_children resolves contributes typeName
  | refused kind => exact .throw nofun
  | fields ps =>
    have fields := checks_resolveFields (fun p member => resolves p.2
      (Schema.mem_children_of_property (Schema.share_eq_fields found) member))
      s.facets.required typeName
    exact fields.congr Iff.rfl (by simp [Share.Includes])
  | inclusion pointer =>
    refine checks_refer fun target => ?_
    cases declaring with
    | false => exact (Checks.pure _).congr Iff.rfl (by simp)
    | true => exact ((Checks.check target).map _).congr Iff.rfl (by simp)
  | nothing => exact (Checks.pure _).congr Iff.rfl (by simp [Share.Includes])

end Nodes

-- Inline types have no declaring members, so both go through one induction.
private theorem checks_resolve_memberParts (scope : Scope) (s : Schema) :
    ∀ typeName,
      scope.Checks (scope.resolve s typeName) (scope.table.Acceptable s) (fun _ => False) ∧
      scope.Checks (scope.memberParts false s typeName) (scope.table.Mergeable s)
        fun t => false = true ∧ scope.table.Merges s t := by
  induction s using Schema.induction with
  | step s ih =>
    intro typeName
    have resolves c (child : c ∈ s.children) typeName := (ih c child typeName).1
    have contributes c (child : c ∈ s.children) typeName := (ih c child typeName).2
    rw [resolve_eq, memberParts_eq]
    constructor
    · refine checks_node SchemaTable.Acceptable.knownType fun type named => ?_
      exact (checks_typeOfShape_of_children resolves contributes typeName).congr
        (SchemaTable.acceptable_iff named).symm fun _ => Iff.rfl
    · refine checks_node SchemaTable.Mergeable.knownType fun type named => ?_
      exact (checks_partsOfShare_of_children resolves contributes typeName).congr
        (SchemaTable.mergeable_iff named).symm
        fun _ => and_congr_right' (SchemaTable.merges_iff type).symm

/-- An inline resolution succeeds exactly for the nodes with a type. -/
theorem checks_resolve (scope : Scope) (s : Schema) (typeName : String) :
    scope.Checks (scope.resolve s typeName) (scope.table.Acceptable s) fun _ => False :=
  (checks_resolve_memberParts scope s typeName).1

theorem checks_memberParts (scope : Scope) (declaring : Bool) (s : Schema) (typeName : String) :
    scope.Checks (scope.memberParts declaring s typeName) (scope.table.Mergeable s)
      fun t => declaring = true ∧ scope.table.Merges s t := by
  induction s using Schema.induction generalizing typeName with
  | step s ih =>
    rw [memberParts_eq]
    refine checks_node SchemaTable.Mergeable.knownType fun type named => ?_
    exact (checks_partsOfShare_of_children (fun c _ => checks_resolve scope c) ih typeName).congr
      (SchemaTable.mergeable_iff named).symm
      fun _ => and_congr_right' (SchemaTable.merges_iff type).symm

/-! ### Declarations -/

theorem checks_outcomeOfShape (scope : Scope) (s : Schema) (type : Option NodeType) :
    scope.Checks (scope.outcomeOfShape s (s.shape type)) ((s.shape type).Accepted scope.table s)
      ((s.shape type).Includes scope.table s) := by
  generalize s.shape type = shape
  cases shape with
  | merged =>
    have members := checks_flatten_of_children (s := s) (fun c _ => checks_resolve scope c)
      (fun c _ => checks_memberParts scope true c) scope.schema
    exact (members.map _).congr Iff.rfl (by simp [Shape.Includes])
  | union ss =>
    exact (checks_resolveAlternatives (fun c _ => checks_resolve scope c) scope.schema 1 []).map _
  | fields ps =>
    have properties p (_ : p ∈ ps) := checks_resolve scope p.2
    exact (checks_resolveFields properties s.facets.required scope.schema).map _
  | reference pointer =>
    have checked target : scope.Checks
        (do scope.checkInclusion target
            pure (Outcome.declared (.record scope.schema [.inclusion target] s.summary)))
        True fun t => True ∧ t = target :=
      ((Checks.check target).map _).congr Iff.rfl (by simp)
    exact (checks_refer checked).congr Iff.rfl (by simp [Shape.Includes])
  | array items =>
    cases items with
    | none => exact (Checks.pure _).congr (by simp [Shape.Accepted]) fun _ => Iff.rfl
    | some items =>
      have element := checks_resolve scope items (scope.schema ++ "Item")
      exact (element.map _).congr (by simp [Shape.Accepted]) fun _ => Iff.rfl
  | literals literals => exact checks_declareEnum literals s.summary
  | emptyRecord => exact .pure _
  | scalar kind => exact .pure _
  | any =>
    rw [outcomeOfShape]
    split <;> exact .pure _

/-- A schema is declared exactly if it has a type and nothing that it embeds leads back to it. -/
theorem checks_declare (scope : Scope) (s : Schema) :
    scope.Checks (scope.declare s) (scope.table.Acceptable s) (scope.table.Embeds s) := by
  rw [declare_eq]
  refine checks_node SchemaTable.Acceptable.knownType fun type named => ?_
  exact (checks_outcomeOfShape scope s type).congr (SchemaTable.acceptable_iff named).symm
    fun _ => (SchemaTable.embeds_iff named).symm

/-- Every inclusion of a declared record is an edge from which no path leads back. -/
theorem declare_inclusions {d : Declaration} {target : String} {before after : ResolveState}
    (returned : Returns (scope.declare s) before (.declared d) after)
    (member : .inclusion target ∈ d.members) :
    target ∈ scope.table.inclusionsOf s ∧
      scope.table.inclusionPath? target scope.schema = none := by
  obtain ⟨-, noPath⟩ := ((checks_declare scope s).returns_iff before).mp ⟨_, after, returned⟩
  have named := declare_name returned
  cases d with
  | record name ms description =>
    obtain rfl : name = scope.schema := named
    have embeds := (recordOf_of_declare returned).mem_iff.mp member
    exact ⟨SchemaTable.mem_inclusionsOf_iff.mpr (Or.inl embeds), noPath target embeds⟩
  | _ => cases member

end SchemaTypes.Scope
