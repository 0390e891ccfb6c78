import SchemaTypes.Proofs.Resolve.Merging
import SchemaTypes.Proofs.Resolve.Shape

/-!
# Judgments on every resolution

Resolution is put together from few single computations. A judgment that those satisfy, and that
sequences inherit, holds of every resolution, whatever the node. It may speak of the names that a
computation's result refers to, and assume something of names that are known before.
-/
namespace SchemaTypes.Scope

/-- What a judgment on computations needs in order to hold of every resolution in a scope. It is
given the names known before a computation and the names that a result refers to. -/
structure Supports (scope : Scope)
    (J : ∀ {α : Type}, List String → Resolve α → (α → List String) → Prop) : Prop where
  pure : ∀ {α : Type} {known : List String} {references : α → List String} (a : α),
    references a ⊆ known → J known (Pure.pure a) references
  /-- What the first part returns is known to the second one. -/
  bind : ∀ {α β : Type} {known : List String} {m : Resolve α} {references : α → List String}
    {f : α → Resolve β} {results : β → List String}, J known m references →
    (∀ a, J (known ++ references a) (f a) results) → J known (m >>= f) results
  fail : ∀ {α : Type} {known : List String} {references : α → List String} (e : Error),
    (∀ chain, e ≠ .cyclicInclusion chain) → J known (throw e) references
  refer : ∀ {known : List String} (pointer : String),
    J known (scope.referenceTarget pointer) fun name => [name]
  request : ∀ {known : List String} (literals : List Json) (nullable : Bool) (typeName : String),
    J known (scope.resolveEnum literals nullable typeName) TypeExpr.references

variable {scope : Scope} {J : ∀ {α : Type}, List String → Resolve α → (α → List String) → Prop}
  {s : Schema} {known : List String} {declaring : Bool}

namespace Supports

theorem nodeType (supports : scope.Supports J) (f : Facets) :
    J known (liftM (scope.nodeType f)) fun _ => [] := by
  unfold Scope.nodeType
  split
  · exact supports.pure none (List.nil_subset _)
  next word _ =>
    cases NodeType.ofWord? word f.format with
    | some type => exact supports.pure (some type) (List.nil_subset _)
    | none => exact supports.fail _ nofun

theorem resolveReference (supports : scope.Supports J) (pointer : String) (nullable : Bool) :
    J known (scope.resolveReference pointer nullable) TypeExpr.references :=
  supports.bind (supports.refer pointer) fun name =>
    supports.pure _ (by simp [TypeExpr.references])

/-! ### Lists -/

theorem resolveFields (supports : scope.Supports J) {ps : List (String × Schema)}
    (properties : ∀ p ∈ ps, ∀ known typeName,
      J known (scope.resolve p.2 typeName) TypeExpr.references)
    (required : List String) (typeName : String) :
    J known (scope.resolveFields ps required typeName) Member.listReferences := by
  induction ps generalizing known with
  | nil => exact supports.pure [] (List.nil_subset _)
  | cons p rest ih =>
    refine supports.bind (properties p List.mem_cons_self _ _) fun type => ?_
    refine supports.bind (ih fun q member => properties q (List.mem_cons_of_mem _ member))
      fun fields => ?_
    refine supports.pure _ ?_
    simp only [Member.listReferences, Member.references]
    grind

theorem resolveAlternatives (supports : scope.Supports J) {ss : List Schema}
    (alternatives : ∀ s ∈ ss, ∀ known typeName,
      J known (scope.resolve s typeName) TypeExpr.references)
    (typeName : String) (number : Nat) {types : List TypeExpr}
    (cited : TypeExpr.listReferences types ⊆ known) :
    J known (scope.resolveAlternatives ss typeName number types) TypeExpr.listReferences := by
  induction ss generalizing known number types with
  | nil => exact supports.pure types cited
  | cons s rest ih =>
    refine supports.bind (alternatives s List.mem_cons_self _ _) fun type => ?_
    refine ih (fun r member => alternatives r (List.mem_cons_of_mem _ member)) _ ?_
    exact List.Subset.trans (listReferences_pushType_subset types type) (List.append_subset.mpr
      ⟨List.subset_append_of_subset_left _ cited, List.subset_append_right _ _⟩)

theorem mergeMembers (supports : scope.Supports J) {ss : List Schema}
    (members : ∀ s ∈ ss, ∀ known typeName,
      J known (scope.memberParts declaring s typeName) Member.listReferences)
    (typeName : String) {merged : List Member} (cited : Member.listReferences merged ⊆ known) :
    J known (scope.mergeMembers declaring ss typeName merged) Member.listReferences := by
  induction ss generalizing known merged with
  | nil => exact supports.pure merged cited
  | cons s rest ih =>
    refine supports.bind (members s List.mem_cons_self _ _) fun parts => ?_
    refine ih (fun r member => members r (List.mem_cons_of_mem _ member)) ?_
    exact List.Subset.trans (listReferences_pushMembers_subset merged parts) (List.append_subset.mpr
      ⟨List.subset_append_of_subset_left _ cited, List.subset_append_right _ _⟩)

/-! ### Nodes -/

/-- A flattened record is put together from the members of `allOf` and the properties. -/
theorem flatten_of_children (supports : scope.Supports J)
    (resolves : ∀ c ∈ s.children, ∀ known typeName,
      J known (scope.resolve c typeName) TypeExpr.references)
    (contributes : ∀ c ∈ s.children, ∀ known typeName,
      J known (scope.memberParts declaring c typeName) Member.listReferences)
    (typeName : String) :
    J known (scope.flatten declaring s typeName) Member.listReferences := by
  refine supports.bind (supports.mergeMembers
    (fun m member => contributes m (Schema.mem_children_of_allOf member)) _
    (List.nil_subset _)) fun members => ?_
  cases found : s.properties with
  | none => exact supports.pure _ (List.subset_append_right _ _)
  | some ps =>
    refine supports.bind (supports.resolveFields (fun p member => ?_) _ _) fun fields => ?_
    · exact resolves p.2 (Schema.mem_children_of_property found member)
    · refine supports.pure _
        (List.Subset.trans (listReferences_pushMembers_subset members fields) ?_)
      rw [List.append_assoc]
      exact List.subset_append_right _ _

theorem typeOfShape_of_children (supports : scope.Supports J) {type : Option NodeType}
    (resolves : ∀ c ∈ s.children, ∀ known typeName,
      J known (scope.resolve c typeName) TypeExpr.references)
    (contributes : ∀ c ∈ s.children, ∀ known typeName,
      J known (scope.memberParts false c typeName) Member.listReferences)
    (typeName : String) :
    J known (scope.typeOfShape s typeName (s.shape type)) TypeExpr.references := by
  -- The children of the node that the shape goes through; the others do not count.
  have parts : ∀ c ∈ (s.shape type).parts, ∀ known typeName,
      J known (scope.resolve c typeName) TypeExpr.references :=
    fun c part => resolves c (Schema.mem_children_of_parts part)
  generalize s.shape type = shape at parts ⊢
  cases shape with
  | merged =>
    refine supports.bind (supports.flatten_of_children resolves contributes _) fun ms => ?_
    exact supports.pure _ (by simp [TypeExpr.references])
  | union ss =>
    refine supports.bind (supports.resolveAlternatives parts _ _ (List.nil_subset _)) fun ts => ?_
    exact supports.pure _ (by simp [TypeExpr.references])
  | fields ps =>
    refine supports.bind (supports.resolveFields (fun p member => ?_) _ _) fun ms => ?_
    · exact parts p.2 (List.mem_map_of_mem member)
    · exact supports.pure _ (by simp [TypeExpr.references])
  | reference pointer => exact supports.resolveReference pointer _
  | array items =>
    cases items with
    | none => exact supports.pure _ (by simp [TypeExpr.references])
    | some items =>
      refine supports.bind (parts items (by simp [Shape.parts]) _ _) fun t => ?_
      exact supports.pure _ (by simp [TypeExpr.references])
  | literals literals => exact supports.request literals _ _
  | emptyRecord | scalar | any =>
    exact supports.pure _ (by simp [TypeExpr.references, Member.listReferences])

theorem partsOfShare_of_children (supports : scope.Supports J) {type : Option NodeType}
    (check : declaring = true → ∀ known target,
      J known (liftM (scope.checkInclusion target)) fun _ => [])
    (resolves : ∀ c ∈ s.children, ∀ known typeName,
      J known (scope.resolve c typeName) TypeExpr.references)
    (contributes : ∀ c ∈ s.children, ∀ known typeName,
      J known (scope.memberParts declaring c typeName) Member.listReferences)
    (typeName : String) :
    J known (scope.partsOfShare declaring s typeName (s.share type)) Member.listReferences := by
  cases found : s.share type with
  | nested => exact supports.flatten_of_children resolves contributes _
  | refused kind => exact supports.fail _ nofun
  | fields ps =>
    refine supports.resolveFields (fun p member => ?_) _ _
    exact resolves p.2
      (Schema.mem_children_of_property (Schema.share_eq_fields found) member)
  | inclusion pointer =>
    refine supports.bind (supports.refer pointer) fun target => ?_
    cases declaring with
    | false => exact supports.pure _ (by simp [Member.listReferences, Member.references])
    | true =>
      refine supports.bind (check rfl _ target) fun _ => ?_
      exact supports.pure _ (by simp [Member.listReferences, Member.references])
  | nothing => exact supports.pure _ (by simp [Member.listReferences])

-- Inline types have no declaring members, so both go through one induction.
private theorem resolve_memberParts (supports : scope.Supports J) (s : Schema) :
    ∀ known typeName, J known (scope.resolve s typeName) TypeExpr.references ∧
      J known (scope.memberParts false s typeName) Member.listReferences := by
  induction s using Schema.induction with
  | step s ih =>
    intro known typeName
    have resolves c (child : c ∈ s.children) known typeName := (ih c child known typeName).1
    have contributes c (child : c ∈ s.children) known typeName := (ih c child known typeName).2
    have unchecked : false = true → ∀ known target,
        J known (liftM (scope.checkInclusion target)) fun _ => [] := nofun
    rw [resolve_eq, memberParts_eq]
    constructor
    · refine supports.bind (supports.nodeType _) fun type => ?_
      exact supports.typeOfShape_of_children resolves contributes typeName
    · refine supports.bind (supports.nodeType _) fun type => ?_
      exact supports.partsOfShare_of_children unchecked resolves contributes typeName

/-- The judgment holds of every inline resolution. -/
theorem resolve (supports : scope.Supports J) (s : Schema) (known : List String)
    (typeName : String) : J known (scope.resolve s typeName) TypeExpr.references :=
  (supports.resolve_memberParts s known typeName).1

/-- It holds of what is contributed to a declared record if it holds of the checks. -/
theorem memberParts (supports : scope.Supports J)
    (check : declaring = true → ∀ known target,
      J known (liftM (scope.checkInclusion target)) fun _ => [])
    (s : Schema) (known : List String) (typeName : String) :
    J known (scope.memberParts declaring s typeName) Member.listReferences := by
  induction s using Schema.induction generalizing known typeName with
  | step s ih =>
    rw [memberParts_eq]
    refine supports.bind (supports.nodeType _) fun type => ?_
    exact supports.partsOfShare_of_children check (fun c _ => supports.resolve c) ih typeName

theorem flatten (supports : scope.Supports J)
    (check : declaring = true → ∀ known target,
      J known (liftM (scope.checkInclusion target)) fun _ => [])
    (s : Schema) (typeName : String) :
    J known (scope.flatten declaring s typeName) Member.listReferences :=
  supports.flatten_of_children (fun c _ => supports.resolve c)
    (fun c _ => supports.memberParts check c) typeName

end Supports

end SchemaTypes.Scope
