import SchemaTypes.Proofs.Document.Rewriting
import SchemaTypes.Proofs.Resolve.Inclusion
import SchemaTypes.Proofs.Resolve.Shape
import SchemaTypes.Resolve.Pass

/-!
# Schemas with other pointers to the same targets

Resolution reads a pointer only to look its target up, or to say that it has none. So where pointers
are replaced by others that designate the same in another table, every schema resolves the same
there, from every state, and so does a whole pass.
-/
namespace SchemaTypes

open Data Naming

/-! ### Shapes and shares -/

/-- The shape with its pointer replaced, or the pointers below it. -/
def Shape.mapReferences (g : String → String) : Shape → Shape
  | .union alternatives => .union (alternatives.map (Schema.mapReferences g))
  | .fields properties => .fields (properties.map fun p => (p.1, p.2.mapReferences g))
  | .reference pointer => .reference (g pointer)
  | .array items => .array (items.map (Schema.mapReferences g))
  | .merged => .merged
  | .emptyRecord => .emptyRecord
  | .literals ls => .literals ls
  | .scalar kind => .scalar kind
  | .any => .any

/-- The share with its pointer replaced, or the pointers below it. -/
def Share.mapReferences (g : String → String) : Share → Share
  | .fields properties => .fields (properties.map fun p => (p.1, p.2.mapReferences g))
  | .inclusion pointer => .inclusion (g pointer)
  | .nested => .nested
  | .refused kind => .refused kind
  | .nothing => .nothing

namespace Schema

theorem ofType_mapReferences (g : String → String) (s : Schema) (type : Option NodeType) :
    Shape.ofType (s.mapReferences g) type = (Shape.ofType s type).mapReferences g := by
  unfold Shape.ofType
  rw [facets_mapReferences, items_mapReferences]
  rcases type with _ | kind | _ | _
  · cases s.facets.reference <;> rfl
  · cases kind with
    | string => cases s.facets.literals <;> rfl
    | _ => rfl
  · cases s.facets.reference <;> rfl
  · rfl

/-- The same part decides, and it is rewritten. -/
theorem shape_mapReferences (g : String → String) (s : Schema) (type : Option NodeType) :
    (s.mapReferences g).shape type = (s.shape type).mapReferences g := by
  unfold shape
  rw [allOf_mapReferences, oneOf_mapReferences, anyOf_mapReferences, properties_mapReferences,
    ofType_mapReferences]
  -- No part appears or goes away, so the first one that is there is the same.
  cases s.allOf with
  | cons => rfl
  | nil =>
    cases s.oneOf with
    | cons => rfl
    | nil =>
      cases s.anyOf with
      | cons => rfl
      | nil => cases s.properties <;> rfl

theorem share_mapReferences (g : String → String) (s : Schema) (type : Option NodeType) :
    (s.mapReferences g).share type = (s.share type).mapReferences g := by
  unfold share
  rw [allOf_mapReferences, oneOf_mapReferences, anyOf_mapReferences, properties_mapReferences,
    facets_mapReferences]
  cases s.allOf with
  | cons => rfl
  | nil =>
    cases s.oneOf with
    | cons => rfl
    | nil =>
      cases s.anyOf with
      | cons => rfl
      | nil =>
        cases s.properties with
        | some => rfl
        | none =>
          cases s.facets.reference with
          | some => rfl
          | none => rcases type with _ | kind | _ | _ <;> cases s.facets.type <;> rfl

end Schema

/-! ### Tables -/

/-- The second pointer designates in the second table what the first one does in the first. A
pointer that designates nothing stands for itself, since the error shows it. -/
structure SchemaTable.SameTarget (table table' : SchemaTable) (pointer carried : String) :
    Prop where
  target : table'.resolvePointer carried = table.resolvePointer pointer
  kept : table.resolvePointer pointer = none → carried = pointer

/-- Every pointer of the schema has the same target when it is replaced. -/
def Schema.Retargets (table table' : SchemaTable) (g : String → String) (s : Schema) : Prop :=
  ∀ pointer ∈ s.references, table.SameTarget table' pointer (g pointer)

/-- The second table has the schemas of the first one, with their pointers replaced. -/
structure SchemaTable.Retargeted (table table' : SchemaTable) (g : String → String) : Prop where
  schemas : table'.schemas = table.schemas.map fun e => (e.1, e.2.mapReferences g)
  retargets : ∀ e ∈ table.schemas, e.2.Retargets table table' g

namespace Schema.Retargets

variable {table table' : SchemaTable} {g : String → String} {s c : Schema} {pointer : String}

theorem child (retargets : s.Retargets table table' g) (child : c ∈ s.children) :
    c.Retargets table table' g :=
  fun pointer inside => retargets pointer (Schema.mem_references_of_child child inside)

theorem own (retargets : s.Retargets table table' g)
    (referred : s.facets.reference = some pointer) :
    table.SameTarget table' pointer (g pointer) :=
  retargets pointer (Schema.mem_references_of_own referred)

/-- The target of a node's own reference stays the same. -/
theorem target (retargets : s.Retargets table table' g) :
    (s.mapReferences g).facets.reference.bind table'.resolvePointer =
      s.facets.reference.bind table.resolvePointer := by
  rw [Schema.facets_mapReferences]
  cases referred : s.facets.reference with
  | none => rfl
  | some pointer => exact (retargets.own referred).target

end Schema.Retargets

namespace SchemaTable

variable {table table' : SchemaTable} {g : String → String} {s : Schema}

theorem Retargeted.get? (retargeted : table.Retargeted table' g) (name : String) :
    table'.get? name = (table.get? name).map (Schema.mapReferences g) := by
  rw [SchemaTable.get?, SchemaTable.get?, retargeted.schemas]
  exact Entries.get?_map_snd _ _ _

/-! ### Inclusions -/

theorem membersInclusions_eq (table : SchemaTable) (ss : List Schema) :
    table.membersInclusions ss = ss.flatMap table.memberInclusions := by
  induction ss with
  | nil => rfl
  | cons s rest ih => rw [membersInclusions, ih, List.flatMap_cons]

theorem memberInclusions_eq (table : SchemaTable) (s : Schema) :
    table.memberInclusions s =
      (match s.properties with
        | some _ => []
        | none => (s.facets.reference.bind table.resolvePointer).toList) ++
      s.allOf.flatMap table.memberInclusions := by
  rcases s with ⟨f, _ | ps, items, allOf, oneOf, anyOf⟩ <;>
    simp [memberInclusions, membersInclusions_eq, Schema.properties, Schema.facets, Schema.allOf]

theorem memberInclusions_mapReferences (retargets : s.Retargets table table' g) :
    table'.memberInclusions (s.mapReferences g) = table.memberInclusions s := by
  induction s using Schema.induction with
  | step s ih =>
    have members : s.allOf.flatMap (fun m => table'.memberInclusions (m.mapReferences g)) =
        s.allOf.flatMap table.memberInclusions := by
      refine List.flatMap_congr fun m member => ?_
      have child : m ∈ s.children := Schema.mem_children_of_allOf member
      exact ih m child (retargets.child child)
    rw [memberInclusions_eq, memberInclusions_eq, retargets.target,
      Schema.properties_mapReferences, Schema.allOf_mapReferences, List.flatMap_map, members]
    cases s.properties <;> rfl

theorem inclusionsOf_mapReferences (retargets : s.Retargets table table' g) :
    table'.inclusionsOf (s.mapReferences g) = table.inclusionsOf s := by
  have members : s.allOf.flatMap (fun m => table'.memberInclusions (m.mapReferences g)) =
      s.allOf.flatMap table.memberInclusions := by
    refine List.flatMap_congr fun m member => ?_
    have child : m ∈ s.children := Schema.mem_children_of_allOf member
    exact memberInclusions_mapReferences (retargets.child child)
  rw [inclusionsOf, inclusionsOf, retargets.target, Schema.hasComposition_mapReferences,
    Schema.isBareReference_mapReferences, membersInclusions_eq, membersInclusions_eq,
    Schema.allOf_mapReferences, List.flatMap_map, members]

/-- The search for a way back goes over the same edges, and finds the same path. -/
theorem Retargeted.inclusionPath?_eq (retargeted : table.Retargeted table' g)
    (start goal : String) : table'.inclusionPath? start goal = table.inclusionPath? start goal := by
  have edges : table'.inclusionEdges = table.inclusionEdges := by
    funext name
    rw [inclusionEdges, inclusionEdges, retargeted.get?]
    cases found : table.get? name with
    | none => rfl
    | some s =>
      have entry : (name, s) ∈ table.schemas := Entries.mem_of_get? found
      exact inclusionsOf_mapReferences (retargeted.retargets _ entry)
  have count : table'.schemas.length = table.schemas.length := by
    rw [retargeted.schemas, List.length_map]
  rw [inclusionPath?, inclusionPath?, edges, count]

end SchemaTable

/-! ### Resolution -/

namespace Scope

variable {scope : Scope} {table' : SchemaTable} {g : String → String} {s : Schema}
  {typeName pointer : String} {declaring : Bool}

/-- The scope over another table. -/
abbrev withTable (scope : Scope) (table : SchemaTable) : Scope :=
  { scope with table }

theorem nodeType_mapReferences (scope : Scope) (table : SchemaTable) (g : String → String)
    (s : Schema) :
    (scope.withTable table).nodeType (s.mapReferences g).facets = scope.nodeType s.facets := by
  rw [Schema.facets_mapReferences]
  rfl

theorem referenceTarget_retargeted
    (same : scope.table.SameTarget table' pointer (g pointer)) :
    (scope.withTable table').referenceTarget (g pointer) = scope.referenceTarget pointer := by
  unfold referenceTarget
  rw [same.target]
  cases found : scope.table.resolvePointer pointer with
  | none => rw [same.kept found]
  | some name => rfl

theorem resolveEnum_withTable (literals : List Json) (nullable : Bool) (typeName : String) :
    (scope.withTable table').resolveEnum literals nullable typeName =
      scope.resolveEnum literals nullable typeName := by
  have sameRead : (scope.withTable table').enumLiterals literals = scope.enumLiterals literals :=
    scope.enumLiterals_congr (scope.withTable table') rfl literals
  rw [resolveEnum, resolveEnum, sameRead]

/-- A node resolves the same in both tables. -/
def SameResolution (scope : Scope) (table' : SchemaTable) (g : String → String) (s : Schema) :
    Prop :=
  ∀ typeName, (scope.withTable table').resolve (s.mapReferences g) typeName =
    scope.resolve s typeName

def SameParts (scope : Scope) (table' : SchemaTable) (g : String → String) (declaring : Bool)
    (s : Schema) : Prop :=
  ∀ typeName, (scope.withTable table').memberParts declaring (s.mapReferences g) typeName =
    scope.memberParts declaring s typeName

section Retargeted

variable (retargeted : scope.table.Retargeted table' g)
include retargeted

theorem resolveReference_retargeted (nullable : Bool)
    (same : scope.table.SameTarget table' pointer (g pointer)) :
    (scope.withTable table').resolveReference (g pointer) nullable =
      scope.resolveReference pointer nullable := by
  unfold resolveReference
  rw [referenceTarget_retargeted same]
  refine bind_congr fun name => ?_
  -- The schema of the target has other pointers now, but admits null as before.
  have admits : (table'.get? name).any Schema.admitsNull =
      (scope.table.get? name).any Schema.admitsNull := by
    rw [retargeted.get?, Option.any_map]
    congr 1
    funext s
    exact Schema.admitsNull_mapReferences g s
  exact congrArg (fun admits => pure (TypeExpr.reference name (nullable || admits))) admits

theorem fieldDescription_retargeted (retargets : s.Retargets scope.table table' g) :
    (scope.withTable table').fieldDescription (s.mapReferences g) = scope.fieldDescription s := by
  unfold fieldDescription
  rw [retargets.target, Schema.summary_mapReferences]
  -- Without a description of its own, the field has the one of its target.
  congr 1
  funext _
  cases s.facets.reference.bind scope.table.resolvePointer with
  | none => rfl
  | some name =>
    change (table'.get? name).bind Schema.summary = (scope.table.get? name).bind Schema.summary
    rw [retargeted.get?]
    cases scope.table.get? name with
    | none => rfl
    | some target => exact Schema.summary_mapReferences g target

theorem checkInclusion_retargeted (target : String) :
    (scope.withTable table').checkInclusion target = scope.checkInclusion target := by
  unfold checkInclusion
  rw [retargeted.inclusionPath?_eq]

/-! ### Lists -/

theorem resolveFields_retargeted {ps : List (String × Schema)}
    (retargets : ∀ p ∈ ps, p.2.Retargets scope.table table' g)
    (properties : ∀ p ∈ ps, scope.SameResolution table' g p.2) (required : List String)
    (typeName : String) :
    (scope.withTable table').resolveFields (ps.map fun p => (p.1, p.2.mapReferences g)) required
      typeName = scope.resolveFields ps required typeName := by
  induction ps with
  | nil => rfl
  | cons p rest ih =>
    have first := properties p List.mem_cons_self (propertyTypeName typeName (Text.trim p.1))
    have description := fieldDescription_retargeted retargeted (retargets p List.mem_cons_self)
    have later := ih (fun q member => retargets q (List.mem_cons_of_mem _ member))
      fun q member => properties q (List.mem_cons_of_mem _ member)
    rw [List.map_cons, resolveFields, resolveFields]
    simp only [first, description, later]

end Retargeted

theorem resolveAlternatives_retargeted {ss : List Schema}
    (alternatives : ∀ s ∈ ss, scope.SameResolution table' g s) (typeName : String) (number : Nat)
    (types : List TypeExpr) :
    (scope.withTable table').resolveAlternatives (ss.map (Schema.mapReferences g)) typeName number
      types = scope.resolveAlternatives ss typeName number types := by
  induction ss generalizing number types with
  | nil => rfl
  | cons s rest ih =>
    have first := alternatives s List.mem_cons_self (typeName ++ "Variant" ++ toString number)
    rw [List.map_cons, resolveAlternatives, resolveAlternatives, first]
    refine bind_congr fun type => ?_
    exact ih (fun c member => alternatives c (List.mem_cons_of_mem _ member)) _ _

theorem mergeMembers_retargeted {ss : List Schema}
    (members : ∀ s ∈ ss, scope.SameParts table' g declaring s) (typeName : String)
    (merged : List Member) :
    (scope.withTable table').mergeMembers declaring (ss.map (Schema.mapReferences g)) typeName
      merged = scope.mergeMembers declaring ss typeName merged := by
  induction ss generalizing merged with
  | nil => rfl
  | cons s rest ih =>
    have first := members s List.mem_cons_self typeName
    rw [List.map_cons, mergeMembers, mergeMembers, first]
    refine bind_congr fun parts => ?_
    exact ih (fun c member => members c (List.mem_cons_of_mem _ member)) _

/-! ### Nodes -/

theorem flatten_retargeted (retargeted : scope.table.Retargeted table' g)
    (retargets : s.Retargets scope.table table' g)
    (resolves : ∀ c ∈ s.children, scope.SameResolution table' g c)
    (contributes : ∀ c ∈ s.children, scope.SameParts table' g declaring c) (typeName : String) :
    (scope.withTable table').flatten declaring (s.mapReferences g) typeName =
      scope.flatten declaring s typeName := by
  have members m (member : m ∈ s.allOf) :=
    contributes m (Schema.mem_children_of_allOf member)
  unfold flatten
  rw [Schema.allOf_mapReferences, mergeMembers_retargeted members]
  refine bind_congr fun merged => ?_
  rw [Schema.properties_mapReferences, Schema.required_mapReferences]
  cases found : s.properties with
  | none => rfl
  | some ps =>
    have child p (member : p ∈ ps) : p.2 ∈ s.children :=
      Schema.mem_children_of_property found member
    have fields := resolveFields_retargeted retargeted
      (fun p member => retargets.child (child p member))
      (fun p member => resolves p.2 (child p member)) s.facets.required typeName
    simp only [Option.map_some, fields]

theorem partsOfShare_retargeted (retargeted : scope.table.Retargeted table' g)
    (retargets : s.Retargets scope.table table' g)
    (resolves : ∀ c ∈ s.children, scope.SameResolution table' g c)
    (contributes : ∀ c ∈ s.children, scope.SameParts table' g declaring c)
    (type : Option NodeType) (typeName : String) :
    (scope.withTable table').partsOfShare declaring (s.mapReferences g) typeName
      ((s.mapReferences g).share type) = scope.partsOfShare declaring s typeName (s.share type) := by
  have given := s.of_share type
  rw [Schema.share_mapReferences]
  cases found : s.share type with
  | nested => exact flatten_retargeted retargeted retargets resolves contributes typeName
  | refused kind => rfl
  | fields ps =>
    rw [found] at given
    have child p (member : p ∈ ps) : p.2 ∈ s.children :=
      Schema.mem_children_of_property given.2 member
    simp only [Share.mapReferences, partsOfShare, Schema.required_mapReferences]
    exact resolveFields_retargeted retargeted (fun p member => retargets.child (child p member))
      (fun p member => resolves p.2 (child p member)) s.facets.required typeName
  | inclusion pointer =>
    rw [found] at given
    obtain ⟨-, -, referred⟩ := given
    simp only [Share.mapReferences, partsOfShare]
    rw [referenceTarget_retargeted (retargets.own referred)]
    simp only [checkInclusion_retargeted retargeted]
  | nothing => rfl

theorem typeOfShape_retargeted (retargeted : scope.table.Retargeted table' g)
    (retargets : s.Retargets scope.table table' g)
    (resolves : ∀ c ∈ s.children, scope.SameResolution table' g c)
    (contributes : ∀ c ∈ s.children, scope.SameParts table' g false c)
    (type : Option NodeType) (typeName : String) :
    (scope.withTable table').typeOfShape (s.mapReferences g) typeName
      ((s.mapReferences g).shape type) = scope.typeOfShape s typeName (s.shape type) := by
  have parts c (part : c ∈ (s.shape type).parts) : c ∈ s.children :=
    Schema.mem_children_of_parts part
  have referred {pointer : String} (found : s.shape type = .reference pointer) :=
    retargets.own (Schema.shape_eq_reference found).2.2.1
  rw [Schema.shape_mapReferences]
  generalize s.shape type = shape at parts referred ⊢
  cases shape with
  | merged =>
    simp only [Shape.mapReferences, typeOfShape, Schema.isNullable_mapReferences]
    rw [flatten_retargeted retargeted retargets resolves contributes]
  | union ss =>
    simp only [Shape.mapReferences, typeOfShape, Schema.isNullable_mapReferences]
    rw [resolveAlternatives_retargeted fun c (member : c ∈ ss) => resolves c (parts c member)]
  | fields ps =>
    have child p (member : p ∈ ps) : p.2 ∈ s.children := parts p.2 (List.mem_map_of_mem member)
    have fields := resolveFields_retargeted retargeted
      (fun p member => retargets.child (child p member))
      (fun p member => resolves p.2 (child p member)) s.facets.required typeName
    simp only [Shape.mapReferences, typeOfShape, Schema.isNullable_mapReferences,
      Schema.required_mapReferences, fields]
  | reference pointer =>
    simp only [Shape.mapReferences, typeOfShape, Schema.isNullable_mapReferences]
    exact resolveReference_retargeted retargeted _ (referred rfl)
  | array items =>
    cases items with
    | none => simp only [Shape.mapReferences, Option.map_none, typeOfShape,
        Schema.isNullable_mapReferences]
    | some items =>
      have element := resolves items (parts items List.mem_cons_self) (typeName ++ "Item")
      simp only [Shape.mapReferences, Option.map_some, typeOfShape,
        Schema.isNullable_mapReferences, element]
  | literals ls =>
    simp only [Shape.mapReferences, typeOfShape, Schema.isNullable_mapReferences]
    exact resolveEnum_withTable ls _ typeName
  | emptyRecord | scalar | any =>
    simp only [Shape.mapReferences, typeOfShape, Schema.isNullable_mapReferences]

/-! ### Resolutions -/

section Retargeted

variable (retargeted : scope.table.Retargeted table' g)
include retargeted

private theorem same_both (retargets : s.Retargets scope.table table' g) :
    scope.SameResolution table' g s ∧ ∀ declaring, scope.SameParts table' g declaring s := by
  induction s using Schema.induction with
  | step s ih =>
    have resolves c (child : c ∈ s.children) := (ih c child (retargets.child child)).1
    have contributes (declaring : Bool) c (child : c ∈ s.children) :=
      (ih c child (retargets.child child)).2 declaring
    constructor
    · intro typeName
      rw [resolve_eq, resolve_eq, nodeType_mapReferences]
      refine bind_congr fun type => ?_
      exact typeOfShape_retargeted retargeted retargets resolves (contributes false) type typeName
    · intro declaring typeName
      rw [memberParts_eq, memberParts_eq, nodeType_mapReferences]
      refine bind_congr fun type => ?_
      exact partsOfShare_retargeted retargeted retargets resolves (contributes declaring) type
        typeName

/-- A node whose pointers designate the same resolves to the same type. -/
theorem resolve_retargeted (retargets : s.Retargets scope.table table' g) :
    scope.SameResolution table' g s :=
  (same_both retargeted retargets).1

theorem memberParts_retargeted (declaring : Bool) (retargets : s.Retargets scope.table table' g) :
    scope.SameParts table' g declaring s :=
  (same_both retargeted retargets).2 declaring

/-! ### Declarations -/

theorem inclusionRecord_retargeted (description : Option String)
    (same : scope.table.SameTarget table' pointer (g pointer)) :
    (scope.withTable table').inclusionRecord (g pointer) description =
      scope.inclusionRecord pointer description := by
  unfold inclusionRecord
  rw [referenceTarget_retargeted same]
  simp only [checkInclusion_retargeted retargeted]

theorem declare_retargeted (retargets : s.Retargets scope.table table' g) :
    (scope.withTable table').declare (s.mapReferences g) = scope.declare s := by
  have resolves c (child : c ∈ s.children) :=
    resolve_retargeted retargeted (retargets.child child)
  have contributes c (child : c ∈ s.children) :=
    memberParts_retargeted retargeted true (retargets.child child)
  rw [declare_eq, declare_eq, nodeType_mapReferences]
  refine bind_congr fun type => ?_
  have parts c (part : c ∈ (s.shape type).parts) : c ∈ s.children :=
    Schema.mem_children_of_parts part
  have referred {pointer : String} (found : s.shape type = .reference pointer) :=
    retargets.own (Schema.shape_eq_reference found).2.2.1
  rw [Schema.shape_mapReferences]
  generalize s.shape type = shape at parts referred ⊢
  cases shape with
  | merged =>
    simp only [Shape.mapReferences, outcomeOfShape, Schema.summary_mapReferences]
    rw [flatten_retargeted retargeted retargets resolves contributes]
  | union ss =>
    simp only [Shape.mapReferences, outcomeOfShape, Schema.summary_mapReferences]
    rw [resolveAlternatives_retargeted fun c (member : c ∈ ss) => resolves c (parts c member)]
  | fields ps =>
    have child p (member : p ∈ ps) : p.2 ∈ s.children := parts p.2 (List.mem_map_of_mem member)
    have fields := resolveFields_retargeted retargeted
      (fun p member => retargets.child (child p member))
      (fun p member => resolves p.2 (child p member)) s.facets.required scope.schema
    simp only [Shape.mapReferences, outcomeOfShape, Schema.summary_mapReferences,
      Schema.required_mapReferences, fields]
  | reference pointer =>
    simp only [Shape.mapReferences, outcomeOfShape, Schema.summary_mapReferences]
    exact inclusionRecord_retargeted retargeted _ (referred rfl)
  | array items =>
    cases items with
    | none => simp only [Shape.mapReferences, Option.map_none, outcomeOfShape,
        Schema.isNullable_mapReferences, Schema.summary_mapReferences]
    | some items =>
      have element := resolves items (parts items List.mem_cons_self) (scope.schema ++ "Item")
      simp only [Shape.mapReferences, Option.map_some, outcomeOfShape,
        Schema.isNullable_mapReferences, Schema.summary_mapReferences, element]
  | literals ls =>
    simp only [Shape.mapReferences, outcomeOfShape, Schema.summary_mapReferences]
    have sameRead : (scope.withTable table').enumLiterals ls = scope.enumLiterals ls :=
      scope.enumLiterals_congr (scope.withTable table') rfl ls
    rw [declareEnum, declareEnum, sameRead]
  | emptyRecord | scalar | any =>
    simp only [Shape.mapReferences, outcomeOfShape, Schema.isNullable_mapReferences,
      Schema.summary_mapReferences, Schema.declaredNullability_mapReferences]

end Retargeted

end Scope

/-! ### Passes -/

namespace Pass

variable {pass : Pass} {table' : SchemaTable} {g : String → String}

theorem declareAll_retargeted (retargeted : pass.table.Retargeted table' g) (declared : NameSet)
    {schemas : Entries Schema} (retargets : ∀ e ∈ schemas, e.2.Retargets pass.table table' g) :
    ({ pass with table := table' } : Pass).declareAll declared
      (schemas.map fun e => (e.1, e.2.mapReferences g)) = pass.declareAll declared schemas := by
  induction schemas with
  | nil => rfl
  | cons e rest ih =>
    have later := ih fun f member => retargets f (List.mem_cons_of_mem _ member)
    have first : ((pass.scope e.1).withTable table').declare (e.2.mapReferences g) =
        (pass.scope e.1).declare e.2 :=
      Scope.declare_retargeted retargeted (retargets e List.mem_cons_self)
    rw [List.map_cons, declareAll, declareAll, later]
    by_cases known : declared.contains e.1 = true
    · rw [if_pos known, if_pos known]
    · rw [if_neg known, if_neg known]
      exact congrArg (· >>= _) first

/-- A pass over a retargeted table yields the same set, or the same error. -/
theorem run_retargeted (retargeted : pass.table.Retargeted table' g) :
    ({ pass with table := table' } : Pass).run = pass.run := by
  have declared := declareAll_retargeted retargeted (pass.seed.getD .empty).declaredNames
    retargeted.retargets
  rw [← retargeted.schemas] at declared
  -- All else that a run needs does not come from the table.
  unfold run
  simp only [declared]

end Pass
end SchemaTypes
