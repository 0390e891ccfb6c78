import SchemaTypes.Proofs.Document.Visits
import SchemaTypes.Proofs.Resolve.Asking
import SchemaTypes.Proofs.Resolve.PathStack

/-!
# What a resolution looks up

The resolver goes through a schema in its own way, but each pointer that it looks up is one of the
references of the schema. Only the check for cycles goes on to pointers in other schemas, which are
those that inclusions lead to.
-/
namespace SchemaTypes

open Resolve

namespace Scope

variable {scope : Scope} {s : Schema} {asks : String → Prop} {typeName pointer : String}

/-- A resolution over the table of the scope, with its pointers asked for. -/
abbrev Follows (scope : Scope) {α : Type} (asks : String → Prop) (m : AskingResolve α)
    (n : Resolve α) : Prop :=
  m.Follows scope.table.resolvePointer asks n

theorem follows_referenceTarget (allowed : asks pointer) :
    scope.Follows asks (scope.askReferenceTarget pointer) (scope.referenceTarget pointer) := by
  refine .ask (Inquiry.finds_target allowed) ?_
  unfold referenceTarget
  cases scope.table.resolvePointer pointer with
  | none => exact .throw _
  | some name => exact fun before => .pure _

theorem follows_reference (allowed : asks pointer) (nullable : Bool) :
    scope.Follows asks (scope.askReference pointer nullable)
      (scope.resolveReference pointer nullable) :=
  (follows_referenceTarget allowed).bind fun _ => .pure _

theorem finds_description (s : Schema) :
    (scope.askDescription s).Finds scope.table.resolvePointer (· ∈ s.references)
      (scope.fieldDescription s) := by
  unfold askDescription fieldDescription
  cases s.summary with
  | some summary => exact .pure _
  | none => exact (Inquiry.finds_targetOf fun _ => Schema.mem_references_of_own).bind (.pure _)

theorem follows_inclusion (target : String) :
    scope.Follows (scope.table.Onward target) (scope.askInclusion target)
      (liftM (scope.checkInclusion target)) := by
  refine .ask (scope.table.finds_inclusionPath? target scope.schema) ?_
  unfold checkInclusion
  cases scope.table.inclusionPath? target scope.schema with
  | none => exact .pure _
  | some path => exact .throw _

/-! ### Lists -/

theorem follows_fields {ps : List (String × Schema)}
    (types : ∀ p ∈ ps, ∀ typeName,
      scope.Follows asks (scope.askType p.2 typeName) (scope.resolve p.2 typeName))
    (descriptions : ∀ p ∈ ps, (scope.askDescription p.2).Finds scope.table.resolvePointer asks
      (scope.fieldDescription p.2))
    (required : List String) (typeName : String) :
    scope.Follows asks (scope.askFields ps required typeName)
      (scope.resolveFields ps required typeName) := by
  induction ps with
  | nil => exact .pure []
  | cons p rest ih =>
    rw [askFields, resolveFields]
    refine (types p List.mem_cons_self _).bind fun type => ?_
    refine .ask (descriptions p List.mem_cons_self) ?_
    have later := ih (fun q member => types q (List.mem_cons_of_mem _ member))
      fun q member => descriptions q (List.mem_cons_of_mem _ member)
    exact later.bind fun fields => .pure _

theorem follows_alternatives {ss : List Schema}
    (types : ∀ s ∈ ss, ∀ typeName,
      scope.Follows asks (scope.askType s typeName) (scope.resolve s typeName))
    (typeName : String) (number : Nat) (merged : List TypeExpr) :
    scope.Follows asks (scope.askAlternatives ss typeName number merged)
      (scope.resolveAlternatives ss typeName number merged) := by
  induction ss generalizing number merged with
  | nil => exact .pure merged
  | cons s rest ih =>
    rw [askAlternatives, resolveAlternatives]
    refine (types s List.mem_cons_self _).bind fun type => ?_
    exact ih (fun c member => types c (List.mem_cons_of_mem _ member)) _ _

theorem follows_members {declaring : Bool} {ss : List Schema}
    (parts : ∀ s ∈ ss, ∀ typeName, scope.Follows asks (scope.askParts declaring s typeName)
      (scope.memberParts declaring s typeName))
    (typeName : String) (merged : List Member) :
    scope.Follows asks (scope.askMembers declaring ss typeName merged)
      (scope.mergeMembers declaring ss typeName merged) := by
  induction ss generalizing merged with
  | nil => exact .pure merged
  | cons s rest ih =>
    rw [askMembers, mergeMembers]
    refine (parts s List.mem_cons_self _).bind fun members => ?_
    exact ih (fun c member => parts c (List.mem_cons_of_mem _ member)) _

/-! ### Nodes -/

/-- The type of the node is found with the pointers in it. -/
def TypeFollows (scope : Scope) (s : Schema) : Prop :=
  ∀ typeName, scope.Follows (· ∈ s.references) (scope.askType s typeName) (scope.resolve s typeName)

/-- What the resolution of the node for a record may look up: the pointers in the node and, where
the inclusions are checked, those in the schemas that these lead to. -/
def MayLookUp (scope : Scope) (declaring : Bool) (s : Schema) (pointer : String) : Prop :=
  pointer ∈ s.references ∨ declaring = true ∧ ∃ own ∈ s.references, ∃ target,
    scope.table.resolvePointer own = some target ∧ scope.table.Onward target pointer

def PartsFollow (scope : Scope) (declaring : Bool) (s : Schema) : Prop :=
  ∀ typeName, scope.Follows (scope.MayLookUp declaring s) (scope.askParts declaring s typeName)
    (scope.memberParts declaring s typeName)

theorem mayLookUp_of_child {declaring : Bool} {c : Schema} (child : c ∈ s.children)
    (may : scope.MayLookUp declaring c pointer) : scope.MayLookUp declaring s pointer := by
  rcases may with inside | ⟨checked, own, inside, target, designated, onward⟩
  · exact Or.inl (Schema.mem_references_of_child child inside)
  · exact Or.inr ⟨checked, own, Schema.mem_references_of_child child inside, target, designated,
      onward⟩

theorem mayLookUp_false_iff : scope.MayLookUp false s pointer ↔ pointer ∈ s.references := by
  simp [MayLookUp]

theorem members_of_children {declaring : Bool}
    (parts : ∀ c ∈ s.children, scope.PartsFollow declaring c) (typeName : String) :
    scope.Follows (scope.MayLookUp declaring s) (scope.askMembers declaring s.allOf typeName [])
      (scope.mergeMembers declaring s.allOf typeName []) := by
  refine follows_members (fun m member typeName => ?_) typeName []
  have child : m ∈ s.children := Schema.mem_children_of_allOf member
  exact (parts m child typeName).mono fun _ => mayLookUp_of_child child

section Children

variable {declaring : Bool} (types : ∀ c ∈ s.children, scope.TypeFollows c)
include types

theorem fields_of_children {ps : List (String × Schema)} (given : s.properties = some ps)
    (required : List String) (typeName : String) :
    scope.Follows (· ∈ s.references) (scope.askFields ps required typeName)
      (scope.resolveFields ps required typeName) := by
  refine follows_fields (fun p member typeName => ?_) (fun p member => ?_) required typeName
  · have child := Schema.mem_children_of_property given member
    exact (types p.2 child typeName).mono fun _ => Schema.mem_references_of_child child
  · have child := Schema.mem_children_of_property given member
    exact (finds_description p.2).mono fun _ => Schema.mem_references_of_child child

theorem alternatives_of_children {ss : List Schema} (below : ss ⊆ s.children)
    (typeName : String) :
    scope.Follows (· ∈ s.references) (scope.askAlternatives ss typeName 1 [])
      (scope.resolveAlternatives ss typeName 1 []) := by
  refine follows_alternatives (fun c member typeName => ?_) typeName 1 []
  exact (types c (below member) typeName).mono fun _ =>
    Schema.mem_references_of_child (below member)

theorem flatten_of_children (parts : ∀ c ∈ s.children, scope.PartsFollow declaring c)
    (typeName : String) :
    scope.Follows (scope.MayLookUp declaring s) (scope.askFlatten declaring s typeName)
      (scope.flatten declaring s typeName) := by
  refine (members_of_children parts typeName).bind fun members => ?_
  cases given : s.properties with
  | none => exact .pure _
  | some ps =>
    have fields := fields_of_children types given s.facets.required typeName
    exact (fields.mono fun _ => Or.inl).bind fun _ => .pure _

theorem type_of_children (parts : ∀ c ∈ s.children, scope.PartsFollow false c) :
    scope.TypeFollows s := by
  intro typeName
  rcases s with ⟨f, properties, items, allOf, oneOf, anyOf⟩
  rw [askType, resolve]
  refine (AskingResolve.Follows.lift (scope.nodeType f)).bind fun type => ?_
  -- Both try the parts of the node in the same order, and the first that is given decides.
  cases allOf with
  | cons m ms =>
    have merged := (members_of_children parts typeName).mono fun _ => mayLookUp_false_iff.mp
    refine merged.bind fun members => ?_
    cases properties with
    | none => exact .pure _
    | some ps => exact (fields_of_children types rfl f.required typeName).bind fun _ => .pure _
  | nil =>
    cases oneOf with
    | cons a rest =>
      refine (alternatives_of_children types (fun c member => ?_) typeName).bind fun _ => .pure _
      exact Schema.mem_children_of_oneOf member
    | nil =>
      cases anyOf with
      | cons a rest =>
        refine (alternatives_of_children types (fun c member => ?_) typeName).bind fun _ => .pure _
        exact Schema.mem_children_of_anyOf member
      | nil =>
        cases properties with
        | some ps => exact (fields_of_children types rfl f.required typeName).bind fun _ => .pure _
        | none =>
          rcases type with _ | kind | _ | _
          · cases own : f.reference with
            | none => exact .pure _
            | some pointer =>
              have inside := Schema.mem_references_of_own (s := .node f none items [] [] []) own
              exact follows_reference inside _
          · cases kind with
            | string =>
              cases f.literals with
              | nil => exact .pure _
              | cons l ls => exact .quiet _
            | _ => exact .pure _
          · cases own : f.reference with
            | none => exact .pure _
            | some pointer =>
              have inside := Schema.mem_references_of_own (s := .node f none items [] [] []) own
              exact follows_reference inside _
          · cases items with
            | none => exact .pure _
            | some i =>
              have child : i ∈ (Schema.node f none (some i) [] [] []).children :=
                Schema.mem_children.mpr (Or.inr (Or.inl rfl))
              have element := (types i child (typeName ++ "Item")).mono fun _ =>
                Schema.mem_references_of_child child
              exact element.bind fun _ => .pure _

theorem parts_of_children (parts : ∀ c ∈ s.children, scope.PartsFollow declaring c) :
    scope.PartsFollow declaring s := by
  intro typeName
  rcases s with ⟨f, properties, items, allOf, oneOf, anyOf⟩
  rw [askParts, memberParts]
  refine (AskingResolve.Follows.lift (scope.nodeType f)).bind fun type => ?_
  cases allOf with
  | cons m ms => exact flatten_of_children types parts typeName
  | nil =>
    cases oneOf with
    | cons a rest => exact .throw _
    | nil =>
      cases anyOf with
      | cons a rest => exact .throw _
      | nil =>
        cases properties with
        | some ps =>
          exact (fields_of_children types rfl f.required typeName).mono fun _ => Or.inl
        | none =>
          cases own : f.reference with
          | none =>
            -- The member contributes nothing, or its type is refused.
            rcases type with _ | kind | _ | _ <;> cases f.type
            all_goals first | exact .pure [] | exact .throw _
          | some pointer =>
            have inside := Schema.mem_references_of_own (s := .node f none items [] [] []) own
            refine (follows_referenceTarget (Or.inl inside)).bind_returned ?_
            intro before target mid returned
            obtain ⟨designated, -⟩ := referenceTarget_returns.mp returned
            cases declaring with
            | false => exact .pure _
            | true =>
              -- The check starts from what the member's own pointer designates.
              refine .bind ((follows_inclusion target).mono fun _ onward => ?_) fun _ => .pure _
              exact Or.inr ⟨rfl, pointer, inside, target, designated, onward⟩

end Children

/-! ### Resolutions -/

-- Inline types have no declaring members, so both go through one induction.
private theorem follows_both (s : Schema) : scope.TypeFollows s ∧ scope.PartsFollow false s := by
  induction s using Schema.induction with
  | step s ih =>
    have types c (child : c ∈ s.children) := (ih c child).1
    have parts c (child : c ∈ s.children) := (ih c child).2
    exact ⟨type_of_children types parts, parts_of_children types parts⟩

theorem follows_type (scope : Scope) (s : Schema) : scope.TypeFollows s :=
  (follows_both s).1

theorem follows_parts (scope : Scope) (declaring : Bool) (s : Schema) :
    scope.PartsFollow declaring s := by
  induction s using Schema.induction with
  | step s ih => exact parts_of_children (fun c _ => scope.follows_type c) ih

theorem follows_flatten (scope : Scope) (declaring : Bool) (s : Schema) (typeName : String) :
    scope.Follows (scope.MayLookUp declaring s) (scope.askFlatten declaring s typeName)
      (scope.flatten declaring s typeName) :=
  flatten_of_children (fun c _ => scope.follows_type c)
    (fun c _ => scope.follows_parts declaring c) typeName

end Scope

/-- All that goes through the references of a schema agrees on them. A visit with an update comes to
the listed references in order, and replaces each in its place with all else as it was. Resolution
of the schema, failed or not, looks up listed references only. Merging into a record does so as
well, except that the check of an inclusion looks up references of the schemas that inclusions lead
to from a listed one. -/
theorem reference_traversals_agree (s : Schema) :
    (∀ (g : String → String) (seen : List String),
      (s.updateReferences (Schema.noting g)).run seen = (s.mapReferences g, seen ++ s.references) ∧
      (s.mapReferences g).references = s.references.map g ∧
      s.Rewrites (fun pointer replaced => replaced = g pointer) (s.mapReferences g)) ∧
    ∀ (scope : Scope) (typeName : String) (before : ResolveState),
      (scope.askType s typeName).answeredFrom scope.table.resolvePointer before =
        runFrom (scope.resolve s typeName) before ∧
      (∀ pointer ∈ (scope.askType s typeName).lookups scope.table.resolvePointer before,
        pointer ∈ s.references) ∧
      ∀ declaring,
        (scope.askFlatten declaring s typeName).answeredFrom scope.table.resolvePointer before =
          runFrom (scope.flatten declaring s typeName) before ∧
        ∀ pointer ∈ (scope.askFlatten declaring s typeName).lookups scope.table.resolvePointer
            before,
          pointer ∈ s.references ∨
            declaring = true ∧ ∃ own ∈ s.references, ∃ target name included,
              scope.table.resolvePointer own = some target ∧
              Reaches scope.table.inclusionEdges target name ∧
              scope.table.get? name = some included ∧ pointer ∈ included.references := by
  refine ⟨fun g seen => ?_, fun scope typeName before => ?_⟩
  · have others :
        s.Rewrites (fun pointer replaced => replaced = g pointer) (s.mapReferences g) := by
      refine Schema.rewrites_mapReferences ?_ s
      exact fun _ => rfl
    exact ⟨Schema.notes_updateReferences g s seen, Schema.references_mapReferences g s, others⟩
  · obtain ⟨type, typeAsks⟩ := scope.follows_type s typeName before
    refine ⟨type, typeAsks, fun declaring => ?_⟩
    obtain ⟨members, membersAsk⟩ := scope.follows_flatten declaring s typeName before
    refine ⟨members, fun pointer looked => ?_⟩
    cases membersAsk pointer looked with
    | inl inside => exact Or.inl inside
    | inr walked =>
      obtain ⟨checked, own, listed, target, designated, onward⟩ := walked
      obtain ⟨name, included, path, found, inside⟩ := onward
      exact Or.inr ⟨checked, own, listed, target, name, included, designated, path, found, inside⟩

/-! ### Mutual and animals

The record of a cat includes that of an animal, and the other way round. To refuse the cat, the
check has to look up the pointer that stands in the animal.
-/

namespace Mutual

open SchemaTable.Toys (including)

def cat : Schema :=
  including ["Animal"]

def scope : Scope where
  table := ⟨[("Cat", cat), ("Animal", including ["Cat"])], []⟩
  reserved := {}
  schema := "Cat"

/-- The chain that merging a cat is refused with. -/
def chain : List String :=
  match runFrom (scope.flatten true cat "Cat") {} with
  | (.error (.cyclicInclusion chain), _) => chain
  | _ => []

example : cat.references = ["#/components/schemas/Animal"] ∧ chain = ["Cat", "Animal", "Cat"] := by
  decide +kernel

end Mutual

/-- The check of an inclusion looks up a pointer that does not stand in the schema. -/
theorem not_always_own_lookups : ¬ ∀ (s : Schema) (scope : Scope) (typeName : String)
    (before : ResolveState),
    (∀ pointer ∈ (scope.askType s typeName).lookups scope.table.resolvePointer before,
      pointer ∈ s.references) ∧
    ∀ declaring, ∀ pointer ∈ (scope.askFlatten declaring s typeName).lookups
        scope.table.resolvePointer before,
      pointer ∈ s.references := by
  intro always
  have all := (always Mutual.cat Mutual.scope "Cat" {}).2 true
  have foreign : "#/components/schemas/Cat" ∈
      (Mutual.scope.askFlatten true Mutual.cat "Cat").lookups
        Mutual.scope.table.resolvePointer {} := by
    decide +kernel
  exact absurd (all _ foreign) (by decide +kernel)

end SchemaTypes
