import SchemaTypes.Proofs.Resolve.Alternatives
import SchemaTypes.Proofs.Resolve.Contributions
import SchemaTypes.Proofs.Resolve.Kinds
import SchemaTypes.Proofs.Resolve.Repetition

/-!
# Where and when types are made

Whatever stands inside a type was resolved on its own: from a node below the one that the type was
resolved from, under the name that comes down to it, and at a time in between. The same is true of
what stands inside a declaration.
-/
namespace SchemaTypes

open Data Naming Resolve

/-! ### Names that come down -/

/-- A node that is resolved under a name hands down a name to a node right below it. -/
inductive Schema.HandsDown : Schema × String → Schema × String → Prop
  | property {s : Schema} {ps : List (String × Schema)} {p : String × Schema} (typeName : String) :
    s.properties = some ps → p ∈ ps →
    HandsDown (s, typeName) (p.2, propertyTypeName typeName (Text.trim p.1))
  | items {s c : Schema} (typeName : String) : s.items = some c →
    HandsDown (s, typeName) (c, typeName ++ "Item")
  /-- A member of `allOf` belongs to the record of the node. -/
  | member {s c : Schema} (typeName : String) : c ∈ s.allOf → HandsDown (s, typeName) (c, typeName)
  | alternative {s c : Schema} {i : Nat} (typeName : String) : s.alternatives[i]? = some c →
    HandsDown (s, typeName) (c, typeName ++ "Variant" ++ toString (i + 1))

/-- From the first node and its name, the name of the second one comes down to it. -/
abbrev Schema.Names : Schema × String → Schema × String → Prop :=
  Relation.ReflTransGen Schema.HandsDown

/-! ### Earlier and later -/

/-- Some effects lead from the first state to the second one. -/
def ResolveState.Precedes (before after : ResolveState) : Prop :=
  ∃ es, after = before.perform es

open ResolveState

variable {before mid after : ResolveState}

namespace ResolveState

theorem Precedes.refl (s : ResolveState) : s.Precedes s :=
  ⟨[], rfl⟩

theorem Precedes.trans (first : before.Precedes mid) (second : mid.Precedes after) :
    before.Precedes after := by
  obtain ⟨es, rfl⟩ := first
  obtain ⟨fs, rfl⟩ := second
  exact ⟨es ++ fs, (perform_append before es fs).symm⟩

end ResolveState

theorem Uniform.precedes {α : Type} {m : Resolve α} {a : α} {causes : Effect → Prop}
    (uniform : Uniform (fun _ : Unit => m) causes) (returned : Returns m before a after) :
    before.Precedes after := by
  obtain ⟨es, performed⟩ := uniform.exists_perform before
  rw [returned] at performed
  exact ⟨es, performed⟩

namespace Scope

variable {scope : Scope} {s c : Schema} {t u : TypeExpr} {d : Declaration} {type : Option NodeType}
  {ms : List Member} {ps : List (String × Schema)} {required : List String}
  {typeName hint : String} {number : Nat} {ss : List Schema} {types : List TypeExpr}
  {declaring : Bool} {start final : ResolveState}

theorem resolve_precedes (returned : Returns (scope.resolve s typeName) before t after) :
    before.Precedes after :=
  (uniform_resolve scope s typeName).precedes returned

theorem MakesFields.precedes (makes : scope.MakesFields typeName required ps before ms after) :
    before.Precedes after := by
  induction makes with
  | nil s => exact .refl s
  | cons first _ ih => exact (resolve_precedes first).trans ih

theorem ResolvesEach.precedes (each : scope.ResolvesEach typeName ss number before types after) :
    before.Precedes after := by
  induction each with
  | nil _ s => exact .refl s
  | cons first _ ih => exact (resolve_precedes first).trans ih

mutual

theorem Supplies.precedes {s : Schema} {before after : ResolveState} {ms : List Member} :
    scope.Supplies typeName s before ms after → before.Precedes after
  | .nested _ supply makes => supply.precedes.trans makes.precedes
  | .inclusion before _ _ _ _ => ⟨[.refer _], rfl⟩
  | .fields _ _ makes => makes.precedes
  | .nothing before _ _ _ => .refl before

theorem SupplyAll.precedes {ss : List Schema} {before after : ResolveState} {ms : List Member} :
    scope.SupplyAll typeName ss before ms after → before.Precedes after
  | .nil s => .refl s
  | .cons supplies supply => supplies.precedes.trans supply.precedes

end

/-! ### What is made -/

/-- Between the two states, the node or one below it resolves to the type, under the name that comes
down to it. -/
def Makes (scope : Scope) (s : Schema) (typeName : String) (before : ResolveState) (t : TypeExpr)
    (after : ResolveState) : Prop :=
  ∃ c hint start final, Schema.Names (s, typeName) (c, hint) ∧ before.Precedes start ∧
    Returns (scope.resolve c hint) start t final ∧ final.Precedes after

theorem Makes.of_returns (returned : Returns (scope.resolve s typeName) before t after) :
    scope.Makes s typeName before t after :=
  ⟨s, typeName, before, after, .refl, .refl before, returned, .refl after⟩

theorem Makes.within (made : scope.Makes s typeName start t final) (early : before.Precedes start)
    (late : final.Precedes after) : scope.Makes s typeName before t after := by
  obtain ⟨c, hint, first, last, names, begins, returned, ends⟩ := made
  exact ⟨c, hint, first, last, names, early.trans begins, returned, ends.trans late⟩

theorem Makes.of_names (names : Schema.Names (s, typeName) (c, hint))
    (made : scope.Makes c hint before t after) : scope.Makes s typeName before t after := by
  obtain ⟨inner, name, first, last, below, rest⟩ := made
  exact ⟨inner, name, first, last, names.trans below, rest⟩

/-- A field has the type that is made for one of the properties. -/
theorem MakesFields.makes (makes : scope.MakesFields typeName required ps before ms after)
    (inside : t ∈ ms.filterMap Member.fieldType) :
    ∃ p ∈ ps, scope.Makes p.2 (propertyTypeName typeName (Text.trim p.1)) before t after := by
  induction makes with
  | nil => cases inside
  | @cons key property _ _ _ _ _ _ first later ih =>
    rcases List.mem_cons.mp inside with rfl | further
    · exact ⟨(key, property), List.mem_cons_self,
        (Makes.of_returns first).within (.refl _) later.precedes⟩
    · obtain ⟨p, listed, made⟩ := ih further
      exact ⟨p, List.mem_cons_of_mem _ listed,
        made.within (resolve_precedes first) (.refl _)⟩

theorem makes_of_fields (given : s.properties = some ps)
    (makes : scope.MakesFields typeName required ps before ms after)
    (inside : t ∈ ms.filterMap Member.fieldType) : scope.Makes s typeName before t after := by
  obtain ⟨p, listed, made⟩ := makes.makes inside
  exact made.of_names (.single (.property typeName given listed))

/-- Each type is made for an alternative, under a name with its number. -/
theorem ResolvesEach.makes (each : scope.ResolvesEach typeName ss number before types after)
    (inside : t ∈ types) : ∃ i c, ss[i]? = some c ∧
      scope.Makes c (typeName ++ "Variant" ++ toString (number + i)) before t after := by
  induction each with
  | nil => cases inside
  | @cons c _ number _ _ _ _ _ first later ih =>
    rcases List.mem_cons.mp inside with rfl | further
    · exact ⟨0, c, rfl, (Makes.of_returns first).within (.refl _) later.precedes⟩
    · -- In the rest of the list the numbers start one later.
      obtain ⟨i, c, listed, made⟩ := ih further
      refine ⟨i + 1, c, listed, ?_⟩
      rw [Nat.add_assoc, Nat.add_comm 1 i] at made
      exact made.within (resolve_precedes first) (.refl _)

mutual

theorem Supplies.makes {s : Schema} {before after : ResolveState} {ms : List Member} :
    scope.Supplies typeName s before ms after → t ∈ ms.filterMap Member.fieldType →
      scope.Makes s typeName before t after
  | .nested (s := s) _ supply makes, inside => by
    rw [List.filterMap_append, List.mem_append] at inside
    -- A member of the node's `allOf` was there before the node's own fields.
    rcases inside with merged | own
    · obtain ⟨c, listed, made⟩ := supply.makes merged
      exact (made.of_names (.single (.member typeName listed))).within (.refl _) makes.precedes
    · cases given : s.properties with
      | none =>
        rw [given] at makes
        cases makes
        cases own
      | some ps =>
        rw [given] at makes
        exact (makes_of_fields given makes own).within supply.precedes (.refl _)
  | .inclusion _ _ _ _ _, inside => nomatch inside
  | .fields _ given makes, inside => makes_of_fields given makes inside
  | .nothing _ _ _ _, inside => nomatch inside

theorem SupplyAll.makes {ss : List Schema} {before after : ResolveState} {ms : List Member} :
    scope.SupplyAll typeName ss before ms after → t ∈ ms.filterMap Member.fieldType →
      ∃ c ∈ ss, scope.Makes c typeName before t after
  | .nil _, inside => nomatch inside
  | .cons (s := s) supplies supply, inside => by
    rw [List.filterMap_append, List.mem_append] at inside
    rcases inside with first | later
    · exact ⟨s, List.mem_cons_self, (supplies.makes first).within (.refl _) supply.precedes⟩
    · obtain ⟨c, listed, made⟩ := supply.makes later
      exact ⟨c, List.mem_cons_of_mem _ listed, made.within supplies.precedes (.refl _)⟩

end

theorem firsts_subset (ms : List Member) : firsts ms ⊆ ms := by
  induction ms with
  | nil => exact List.Subset.refl _
  | cons m rest ih =>
    refine List.cons_subset_cons m fun other member => ih ?_
    exact (List.mem_filter.mp member).1

/-- The fields of a merged record have types that are made for the node. -/
theorem makes_of_flatten (given : s.allOf ≠ [])
    (returned : Returns (scope.flatten declaring s typeName) before ms after)
    (inside : t ∈ ms.filterMap Member.fieldType) : scope.Makes s typeName before t after := by
  obtain ⟨flat, supplies, rfl⟩ :=
    supplies_of_flatten (fun _ _ _ _ _ => supplies_of_memberParts) given returned
  -- The repeats that merging drops are made as well, but nothing needs them.
  obtain ⟨m, member, typed⟩ := List.mem_filterMap.mp inside
  exact supplies.makes (List.mem_filterMap.mpr ⟨m, firsts_subset flat member, typed⟩)

/-- The members of a union are made for the node that it comes from. -/
theorem UnionOf.makes {members : List TypeExpr}
    (union : scope.UnionOf typeName s.alternatives before members after) (inside : t ∈ members) :
    scope.Makes s typeName before t after := by
  obtain ⟨types, each, rfl⟩ := union.firsts
  obtain ⟨i, c, listed, made⟩ := each.makes (List.mem_eraseDups.mp inside)
  rw [Nat.add_comm] at made
  exact made.of_names (.single (.alternative typeName listed))

/-! ### One step inside -/

/-- What the shape of a node puts right inside its type or its declaration. -/
inductive Fills (scope : Scope) (s : Schema) (typeName : String) (before : ResolveState) :
    Shape → List TypeExpr → ResolveState → Prop
  | merged {declaring : Bool} {ms : List Member} {after : ResolveState} :
    Returns (scope.flatten declaring s typeName) before ms after →
    Fills scope s typeName before .merged (ms.filterMap Member.fieldType) after
  | fields {ps : List (String × Schema)} {ms : List Member} {after : ResolveState} :
    Returns (scope.resolveFields ps s.facets.required typeName) before ms after →
    Fills scope s typeName before (.fields ps) (ms.filterMap Member.fieldType) after
  | union {ss : List Schema} {members : List TypeExpr} {after : ResolveState} :
    Returns (scope.resolveAlternatives ss typeName 1 []) before members after →
    Fills scope s typeName before (.union ss) members after
  | items {items : Schema} {element : TypeExpr} {after : ResolveState} :
    Returns (scope.resolve items (typeName ++ "Item")) before element after →
    Fills scope s typeName before (.array (some items)) [element] after
  | noItems : Fills scope s typeName before (.array none) [.any false] before
  | nothing (shape : Shape) (after : ResolveState) : Fills scope s typeName before shape [] after

theorem fills_of_typeOfShape
    (returned : Returns (scope.typeOfShape s typeName (s.shape type)) before t after) :
    scope.Fills s typeName before (s.shape type) t.types after := by
  have typed := typeOf_of_returns returned
  generalize s.shape type = shape at typed returned ⊢
  cases shape with
  | merged =>
    obtain ⟨ms, mid, first, last⟩ := returns_bind.mp returned
    obtain ⟨rfl, rfl⟩ := returns_pure.mp last
    exact .merged first
  | fields ps =>
    obtain ⟨ms, mid, first, last⟩ := returns_bind.mp returned
    obtain ⟨rfl, rfl⟩ := returns_pure.mp last
    exact .fields first
  | union ss =>
    obtain ⟨members, mid, first, last⟩ := returns_bind.mp returned
    obtain ⟨rfl, rfl⟩ := returns_pure.mp last
    exact .union first
  | array items =>
    cases items with
    | none =>
      obtain ⟨rfl, rfl⟩ := returns_pure.mp returned
      exact .noItems
    | some items =>
      obtain ⟨element, mid, first, last⟩ := returns_bind.mp returned
      obtain ⟨rfl, rfl⟩ := returns_pure.mp last
      exact .items first
  | reference | emptyRecord | literals | scalar | any => cases typed <;> exact .nothing _ _

theorem fills_of_outcomeOfShape
    (returned : Returns (scope.outcomeOfShape s (s.shape type)) before (.declared d) after) :
    scope.Fills s scope.schema before (s.shape type) d.types after := by
  have kind := outcomeOf_of_returns returned
  generalize s.shape type = shape at kind returned ⊢
  cases shape with
  | merged =>
    obtain ⟨ms, mid, first, last⟩ := returns_bind.mp returned
    obtain ⟨⟨⟩, rfl⟩ := returns_pure.mp last
    exact .merged first
  | fields ps =>
    obtain ⟨ms, mid, first, last⟩ := returns_bind.mp returned
    obtain ⟨⟨⟩, rfl⟩ := returns_pure.mp last
    exact .fields first
  | union ss =>
    obtain ⟨members, mid, first, last⟩ := returns_bind.mp returned
    obtain ⟨⟨⟩, rfl⟩ := returns_pure.mp last
    exact .union first
  | array items =>
    cases items with
    | none =>
      obtain ⟨⟨⟩, rfl⟩ := returns_pure.mp returned
      exact .noItems
    | some items =>
      obtain ⟨element, mid, first, last⟩ := returns_bind.mp returned
      obtain ⟨⟨⟩, rfl⟩ := returns_pure.mp last
      exact .items first
  | reference pointer =>
    obtain ⟨target, -, -, ⟨⟩⟩ := inclusionRecord_returns.mp returned
    exact .nothing _ _
  | emptyRecord =>
    obtain ⟨⟨⟩, -⟩ := returns_pure.mp returned
    exact .nothing _ _
  | literals | scalar | any =>
    cases kind with
    | record isRecord _ => cases isRecord
    | _ => exact .nothing _ _

/-- What a shape puts inside is made for the node, unless it stands for missing items. -/
theorem Fills.makes (fills : scope.Fills s typeName before (s.shape type) types after)
    (inside : u ∈ types) : u = .any false ∨ scope.Makes s typeName before u after := by
  generalize found : s.shape type = shape at fills
  cases fills with
  | merged returned =>
    exact Or.inr (makes_of_flatten (Schema.shape_eq_merged found) returned inside)
  | fields returned =>
    have makes := makesFields_iff.mpr returned
    exact Or.inr (makes_of_fields (Schema.shape_eq_fields found) makes inside)
  | union returned =>
    obtain ⟨-, rfl, given⟩ := Schema.shape_eq_union_iff.mp found
    exact Or.inr ((unionOf_of_returns given returned).makes inside)
  | items returned =>
    obtain rfl := List.mem_singleton.mp inside
    have below := Schema.HandsDown.items typeName (Schema.shape_eq_array found)
    exact Or.inr ((Makes.of_returns returned).of_names (.single below))
  | noItems => exact Or.inl (List.mem_singleton.mp inside)
  | nothing => cases inside

/-! ### Any depth -/

/-- The parts of a type that was made were made as well, unless they stand for missing items. -/
theorem Makes.of_part (made : scope.Makes s typeName before t after) (part : t.Part u) :
    u = .any false ∨ scope.Makes s typeName before u after := by
  induction part with
  | refl => exact Or.inr made
  | tail _ inside ih =>
    -- The outer type was resolved at some time, and the inner one while that was going on.
    rcases ih with rfl | ⟨c, hint, start, final, names, begins, returned, ends⟩
    · cases inside
    · rw [resolve_eq, returns_bind] at returned
      obtain ⟨type, mid, first, last⟩ := returned
      obtain ⟨-, rfl⟩ := returns_lift.mp first
      refine ((fills_of_typeOfShape last).makes inside).imp_right fun below => ?_
      exact (below.of_names names).within begins ends

/-- What stands right inside a declaration is made for its schema in the same way. -/
theorem makes_of_declare (returned : Returns (scope.declare s) before (.declared d) after)
    (inside : u ∈ d.types) : u = .any false ∨ scope.Makes s scope.schema before u after := by
  rw [declare_eq, returns_bind] at returned
  obtain ⟨type, mid, first, last⟩ := returned
  obtain ⟨-, rfl⟩ := returns_lift.mp first
  exact (fills_of_outcomeOfShape last).makes inside

end Scope
end SchemaTypes
