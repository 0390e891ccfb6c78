import SchemaTypes.Proofs.Resolve.Effects
import SchemaTypes.Proofs.Resolve.Merging
import SchemaTypes.Proofs.Resolve.Shape

/-!
# Merging keeps the first of each name

The members of a record with `allOf` are what its nodes supply, one after the other, without the
repeats. Repeats are dropped at every level of nesting, but dropping them once from the whole list
comes to the same. What a node requires decides about its own fields only.
-/
namespace SchemaTypes

open Data Naming Resolve

/-! ### First occurrences -/

/-- What a member takes up in a record: the name of a field, or that of an inclusion. -/
inductive Slot where
  | field (name : String)
  | inclusion (name : String)
deriving DecidableEq

def Member.slot : Member → Slot
  | .field name .. => .field name
  | .inclusion name => .inclusion name

/-- The members without those whose slot an earlier one takes. -/
def firsts : List Member → List Member
  | [] => []
  | m :: rest => m :: (firsts rest).filter fun other => other.slot ≠ m.slot

section Firsts

variable {members new : List Member} {m : Member}

theorem repeats_iff_slot_mem : m.repeats members = true ↔ m.slot ∈ members.map Member.slot := by
  rw [List.mem_map]
  cases m with
  | field name =>
    simp only [Member.repeats, List.any_eq_true, beq_iff_eq]
    refine exists_congr fun other => and_congr_right fun _ => ?_
    cases other <;> simp [Member.fieldName, Member.slot]
  | inclusion name =>
    simp only [Member.repeats, List.contains_iff_mem]
    constructor
    · exact fun member => ⟨_, member, rfl⟩
    · rintro ⟨_ | other, member, same⟩
      · cases same
      · obtain rfl : other = name := Slot.inclusion.inj same
        exact member

/-- Merging appends the first occurrences of new slots. -/
theorem pushMembers_eq (members new : List Member) :
    pushMembers members new =
      members ++ (firsts new).filter fun m : Member => m.slot ∉ members.map Member.slot := by
  induction new generalizing members with
  | nil => simp [pushMembers, firsts]
  | cons m rest ih =>
    have step : pushMembers members (m :: rest) = pushMembers (pushMember members m) rest := rfl
    rw [step, ih, pushMember, firsts]
    by_cases taken : m.slot ∈ members.map Member.slot
    · rw [if_pos (repeats_iff_slot_mem.mpr taken), List.filter_cons_of_neg (by simpa using taken),
        List.filter_filter]
      -- A slot that none of the members takes is not that of the repeated one.
      refine congrArg _ (List.filter_congr fun other _ => ?_)
      by_cases free : other.slot ∈ members.map Member.slot
      · simp [free]
      · have different : other.slot ≠ m.slot := fun same => free (same ▸ taken)
        simp [free, different]
    · rw [if_neg (mt repeats_iff_slot_mem.mp taken), List.filter_cons_of_pos (by simpa using taken),
        List.filter_filter, List.append_assoc, List.singleton_append]
      refine congrArg (fun later => members ++ m :: later) (List.filter_congr fun other _ => ?_)
      simp [not_or, Bool.and_comm]

theorem pushMembers_nil (new : List Member) : pushMembers [] new = firsts new := by
  simp [pushMembers_eq]

theorem firsts_filter (p : Slot → Bool) (members : List Member) :
    firsts (members.filter fun m => p m.slot) = (firsts members).filter fun m => p m.slot := by
  induction members with
  | nil => rfl
  | cons m rest ih =>
    cases kept : p m.slot with
    | true =>
      simp only [List.filter_cons_of_pos, kept, firsts, ih, List.filter_filter, Bool.and_comm]
    | false =>
      -- All that the first member alone removes has its slot, and is filtered out anyway.
      rw [List.filter_cons_of_neg (by simp [kept]), firsts,
        List.filter_cons_of_neg (by simp [kept]), ih, List.filter_filter]
      refine List.filter_congr fun other _ => ?_
      by_cases same : other.slot = m.slot <;> simp [same, kept]

@[simp] theorem firsts_firsts (members : List Member) :
    firsts (firsts members) = firsts members := by
  induction members with
  | nil => rfl
  | cons m rest ih =>
    have later : firsts ((firsts rest).filter fun other => other.slot ≠ m.slot) =
        (firsts rest).filter fun other => other.slot ≠ m.slot := by
      have filtered := firsts_filter (fun slot => slot ≠ m.slot) (firsts rest)
      rwa [ih] at filtered
    rw [firsts, firsts, later, List.filter_filter]
    simp

/-- Merging in a list or only its first occurrences comes to the same. -/
theorem pushMembers_congr {other : List Member} (same : firsts new = firsts other)
    (members : List Member) : pushMembers members new = pushMembers members other := by
  rw [pushMembers_eq, pushMembers_eq, same]

theorem pushMembers_append (members new later : List Member) :
    pushMembers (pushMembers members new) later = pushMembers members (new ++ later) :=
  List.foldl_append.symm

end Firsts

/-! ### Contributions -/

namespace Scope

variable {scope : Scope} {typeName : String} {required : List String} {declaring : Bool}
  {s : Schema} {before after : ResolveState} {ms : List Member}

/-- The fields for properties in order, with the states before and after. A field is required if
its key is one of `required`. -/
inductive MakesFields (scope : Scope) (typeName : String) (required : List String) :
    List (String × Schema) → ResolveState → List Member → ResolveState → Prop
  | nil (s : ResolveState) : MakesFields scope typeName required [] s [] s
  | cons {key : String} {property : Schema} {rest : List (String × Schema)} {type : TypeExpr}
    {fields : List Member} {before mid after : ResolveState} :
    Returns (scope.resolve property (propertyTypeName typeName (Text.trim key))) before type mid →
    MakesFields scope typeName required rest mid fields after →
    MakesFields scope typeName required ((key, property) :: rest) before
      (.field (fieldName scope.reserved (Text.trim key)) (Text.trim key) type
        (required.any fun r => Text.trim r == Text.trim key) (scope.fieldDescription property) ::
          fields) after

mutual

/-- What a node supplies where it is merged, repeats and all: with `allOf`, what its members
supply and then its own fields; else a reference without properties supplies an inclusion,
properties supply fields, and a node with neither supplies nothing. -/
inductive Supplies (scope : Scope) (typeName : String) :
    Schema → ResolveState → List Member → ResolveState → Prop
  | nested {s : Schema} {before mid after : ResolveState} {ms own : List Member} : s.allOf ≠ [] →
    SupplyAll scope typeName s.allOf before ms mid →
    MakesFields scope typeName s.facets.required (s.properties.getD []) mid own after →
    Supplies scope typeName s before (ms ++ own) after
  | inclusion {s : Schema} {pointer target : String} (before : ResolveState) : s.allOf = [] →
    s.properties = none → s.facets.reference = some pointer →
    scope.table.resolvePointer pointer = some target →
    Supplies scope typeName s before [.inclusion target] (before.refer target)
  | fields {s : Schema} {ps : List (String × Schema)} {before after : ResolveState}
    {own : List Member} : s.allOf = [] → s.properties = some ps →
    MakesFields scope typeName s.facets.required ps before own after →
    Supplies scope typeName s before own after
  | nothing {s : Schema} (before : ResolveState) : s.allOf = [] → s.properties = none →
    s.facets.reference = none → Supplies scope typeName s before [] before

/-- What the nodes supply, one after the other. -/
inductive SupplyAll (scope : Scope) (typeName : String) :
    List Schema → ResolveState → List Member → ResolveState → Prop
  | nil (s : ResolveState) : SupplyAll scope typeName [] s [] s
  | cons {s : Schema} {rest : List Schema} {before mid after : ResolveState}
    {ms later : List Member} : Supplies scope typeName s before ms mid →
    SupplyAll scope typeName rest mid later after →
    SupplyAll scope typeName (s :: rest) before (ms ++ later) after

end

theorem makesFields_iff {ps : List (String × Schema)} :
    scope.MakesFields typeName required ps before ms after ↔
      Returns (scope.resolveFields ps required typeName) before ms after := by
  constructor
  · intro makes
    induction makes with
    | nil => exact resolveFields_nil.mpr ⟨rfl, rfl⟩
    | cons first _ ih => exact resolveFields_cons.mpr ⟨_, _, _, first, ih, rfl⟩
  · intro returned
    induction ps generalizing before ms with
    | nil =>
      obtain ⟨rfl, rfl⟩ := resolveFields_nil.mp returned
      exact .nil before
    | cons p rest ih =>
      obtain ⟨type, mid, fields, first, later, rfl⟩ := resolveFields_cons.mp returned
      exact .cons first (ih later)

/-- Merging nodes appends the first occurrences of what they supply. -/
theorem supplyAll_of_mergeMembers {ss : List Schema} {merged : List Member}
    (members : ∀ m ∈ ss, ∀ before parts after,
      Returns (scope.memberParts declaring m typeName) before parts after →
        ∃ flat, scope.Supplies typeName m before flat after ∧ firsts parts = firsts flat)
    (returned : Returns (scope.mergeMembers declaring ss typeName merged) before ms after) :
    ∃ flat, scope.SupplyAll typeName ss before flat after ∧ ms = pushMembers merged flat := by
  induction ss generalizing before merged with
  | nil =>
    obtain ⟨rfl, rfl⟩ := mergeMembers_nil.mp returned
    exact ⟨[], .nil before, rfl⟩
  | cons m rest ih =>
    obtain ⟨parts, mid, first, later⟩ := mergeMembers_cons.mp returned
    obtain ⟨flat, supplies, same⟩ := members m List.mem_cons_self _ _ _ first
    obtain ⟨others, supply, rfl⟩ :=
      ih (fun r inside => members r (List.mem_cons_of_mem _ inside)) later
    refine ⟨flat ++ others, .cons supplies supply, ?_⟩
    -- What the node merged already may be merged in as it was supplied.
    rw [pushMembers_congr same, pushMembers_append]

/-- A record with `allOf` has the first occurrences of what its node supplies. -/
theorem supplies_of_flatten
    (members : ∀ m ∈ s.allOf, ∀ before parts after,
      Returns (scope.memberParts declaring m typeName) before parts after →
        ∃ flat, scope.Supplies typeName m before flat after ∧ firsts parts = firsts flat)
    (given : s.allOf ≠ [])
    (returned : Returns (scope.flatten declaring s typeName) before ms after) :
    ∃ flat, scope.Supplies typeName s before flat after ∧ ms = firsts flat := by
  obtain ⟨merged, mid, first, last⟩ := flatten_returns.mp returned
  obtain ⟨flat, supply, rfl⟩ := supplyAll_of_mergeMembers members first
  rcases last with ⟨none, rfl, rfl⟩ | ⟨ps, own, some, resolved, rfl⟩
  · have makes :
        scope.MakesFields typeName s.facets.required (s.properties.getD []) mid [] mid := by
      rw [none]
      exact .nil mid
    exact ⟨flat ++ [], .nested given supply makes, by rw [List.append_nil, pushMembers_nil]⟩
  · have makes :
        scope.MakesFields typeName s.facets.required (s.properties.getD []) mid own after := by
      rw [some]
      exact makesFields_iff.mpr resolved
    exact ⟨flat ++ own, .nested given supply makes, by rw [pushMembers_append, pushMembers_nil]⟩

/-- A member of `allOf` has the same first occurrences as what it supplies. -/
theorem supplies_of_memberParts
    (returned : Returns (scope.memberParts declaring s typeName) before ms after) :
    ∃ flat, scope.Supplies typeName s before flat after ∧ firsts ms = firsts flat := by
  induction s using Schema.induction generalizing before ms after with
  | step s ih =>
    rw [memberParts_eq, returns_bind] at returned
    obtain ⟨type, mid, first, last⟩ := returned
    obtain ⟨-, rfl⟩ := returns_lift.mp first
    have share := Schema.of_share s type
    cases found : s.share type with
    | nested =>
      rw [found] at last share
      have members m (inside : m ∈ s.allOf) before parts after
          (returned : Returns (scope.memberParts declaring m typeName) before parts after) :=
        ih m (Schema.mem_children_of_allOf inside) returned
      obtain ⟨flat, supplies, rfl⟩ := supplies_of_flatten members share last
      exact ⟨flat, supplies, firsts_firsts flat⟩
    | refused kind =>
      rw [found] at last
      exact absurd last returns_throw
    | fields ps =>
      rw [found] at last share
      obtain ⟨flat, given⟩ := share
      exact ⟨ms, .fields flat given (makesFields_iff.mpr last), rfl⟩
    | inclusion pointer =>
      rw [found, partsOfShare, returns_bind] at last
      rw [found] at share
      obtain ⟨flat, noProperties, given⟩ := share
      obtain ⟨target, state, looked, last⟩ := last
      obtain ⟨designated, rfl⟩ := referenceTarget_returns.mp looked
      -- Checked or not, the only supply is the inclusion.
      obtain ⟨rfl, rfl⟩ : [.inclusion target] = ms ∧ before.refer target = after := by
        cases declaring with
        | false => exact returns_pure.mp last
        | true =>
          obtain ⟨_, _, checked, last⟩ := returns_bind.mp last
          obtain ⟨-, rfl⟩ := returns_lift.mp checked
          exact returns_pure.mp last
      exact ⟨_, .inclusion before flat noProperties given designated, rfl⟩
    | nothing =>
      rw [found] at last share
      obtain ⟨flat, noProperties, noReference⟩ := share
      obtain ⟨rfl, rfl⟩ := returns_pure.mp last
      exact ⟨[], .nothing before flat noProperties noReference, rfl⟩

end Scope

/-! ### Required keys -/

/-- The member as one that may be missing. -/
def Member.optional : Member → Member
  | .field name key type _ description => .field name key type false description
  | .inclusion name => .inclusion name

namespace Schema

mutual

/-- The node without the required keys of all nodes that are merged into its record. -/
def withoutRequired : Schema → Schema
  | .node f properties items allOf oneOf anyOf =>
    .node { f with required := [] } properties items (listWithoutRequired allOf) oneOf anyOf
termination_by structural s => s

def listWithoutRequired : List Schema → List Schema
  | [] => []
  | s :: rest => s.withoutRequired :: listWithoutRequired rest
termination_by structural ss => ss

end

theorem listWithoutRequired_eq (ss : List Schema) :
    listWithoutRequired ss = ss.map withoutRequired := by
  induction ss with
  | nil => rfl
  | cons s rest ih => rw [listWithoutRequired, ih, List.map_cons]

variable (s : Schema)

@[simp] theorem facets_withoutRequired :
    s.withoutRequired.facets = { s.facets with required := [] } := by
  cases s
  rfl

@[simp] theorem properties_withoutRequired : s.withoutRequired.properties = s.properties := by
  cases s
  rfl

@[simp] theorem allOf_withoutRequired :
    s.withoutRequired.allOf = s.allOf.map withoutRequired := by
  cases s
  exact listWithoutRequired_eq _

@[simp] theorem share_withoutRequired (type : Option NodeType) :
    s.withoutRequired.share type = s.share type := by
  obtain ⟨f, properties, items, allOf, oneOf, anyOf⟩ := s
  cases allOf <;> rfl

end Schema

@[simp] theorem Member.slot_optional (m : Member) : m.optional.slot = m.slot := by
  cases m <;> rfl

theorem pushMembers_optional (members new : List Member) :
    (pushMembers members new).map Member.optional =
      pushMembers (members.map Member.optional) (new.map Member.optional) := by
  have slots : (members.map Member.optional).map Member.slot = members.map Member.slot := by
    simp [Function.comp_def]
  have later : firsts (new.map Member.optional) = (firsts new).map Member.optional := by
    induction new with
    | nil => rfl
    | cons m rest ih => simp [firsts, ih, List.filter_map, Function.comp_def]
  rw [pushMembers_eq, pushMembers_eq, slots, later, List.map_append, List.filter_map]
  simp [Function.comp_def]

namespace Scope

variable {scope : Scope} {typeName : String} {declaring : Bool} {s : Schema}

/-- The computation, with all members of its result optional. -/
def allOptional (m : Resolve (List Member)) : Resolve (List Member) := do
  pure ((← m).map Member.optional)

theorem allOptional_pure (ms : List Member) :
    allOptional (pure ms) = pure (ms.map Member.optional) := by
  rw [allOptional, pure_bind]

theorem allOptional_bind {α : Type} (m : Resolve α) (f : α → Resolve (List Member)) :
    allOptional (m >>= f) = m >>= fun a => allOptional (f a) :=
  bind_assoc ..

theorem bind_allOptional {α : Type} (m : Resolve (List Member)) (f : List Member → Resolve α) :
    allOptional m >>= f = m >>= fun ms => f (ms.map Member.optional) := by
  simp only [allOptional, bind_assoc, pure_bind]

theorem resolveFields_optional (ps : List (String × Schema)) (required : List String) :
    scope.resolveFields ps [] typeName =
      allOptional (scope.resolveFields ps required typeName) := by
  induction ps with
  | nil => rw [resolveFields, resolveFields, allOptional_pure, List.map_nil]
  | cons p rest ih =>
    simp only [resolveFields, allOptional_bind, ih, bind_allOptional, allOptional_pure]
    rfl

theorem mergeMembers_withoutRequired {ss : List Schema}
    (members : ∀ m ∈ ss, scope.memberParts declaring m.withoutRequired typeName =
      allOptional (scope.memberParts declaring m typeName)) (merged : List Member) :
    scope.mergeMembers declaring (ss.map Schema.withoutRequired) typeName
        (merged.map Member.optional) =
      allOptional (scope.mergeMembers declaring ss typeName merged) := by
  induction ss generalizing merged with
  | nil => rw [List.map_nil, mergeMembers, mergeMembers, allOptional_pure]
  | cons m rest ih =>
    have later parts := ih (fun r inside => members r (List.mem_cons_of_mem _ inside))
      (pushMembers merged parts)
    simp only [List.map_cons, mergeMembers, members m List.mem_cons_self, bind_allOptional,
      allOptional_bind, ← pushMembers_optional, later]

private theorem flatten_withoutRequired_of_members
    (members : ∀ m ∈ s.allOf, scope.memberParts declaring m.withoutRequired typeName =
      allOptional (scope.memberParts declaring m typeName)) :
    scope.flatten declaring s.withoutRequired typeName =
      allOptional (scope.flatten declaring s typeName) := by
  have merged := mergeMembers_withoutRequired members []
  rw [List.map_nil] at merged
  simp only [flatten, Schema.allOf_withoutRequired, Schema.properties_withoutRequired,
    Schema.facets_withoutRequired, merged, bind_allOptional, allOptional_bind]
  refine bind_congr fun all => ?_
  cases s.properties with
  | none => exact (allOptional_pure all).symm
  | some ps =>
    simp only [resolveFields_optional ps s.facets.required, bind_allOptional, allOptional_bind,
      allOptional_pure, pushMembers_optional]

theorem memberParts_withoutRequired (s : Schema) :
    scope.memberParts declaring s.withoutRequired typeName =
      allOptional (scope.memberParts declaring s typeName) := by
  induction s using Schema.induction with
  | step s ih =>
    have members m (inside : m ∈ s.allOf) := ih m (Schema.mem_children_of_allOf inside)
    have named : scope.nodeType s.withoutRequired.facets = scope.nodeType s.facets := by
      rw [Schema.facets_withoutRequired]
      rfl
    rw [memberParts_eq, memberParts_eq, named, allOptional_bind]
    refine bind_congr fun type => ?_
    rw [Schema.share_withoutRequired]
    cases s.share type with
    | nested => exact flatten_withoutRequired_of_members members
    | refused kind => rfl
    | fields ps =>
      rw [partsOfShare, Schema.facets_withoutRequired]
      exact resolveFields_optional ps s.facets.required
    | inclusion pointer =>
      simp only [partsOfShare, allOptional_bind]
      refine bind_congr fun target => ?_
      cases declaring with
      | false => exact (allOptional_pure [.inclusion target]).symm
      | true =>
        rw [if_pos rfl, allOptional_bind]
        exact bind_congr fun _ => (allOptional_pure [.inclusion target]).symm
    | nothing => exact (allOptional_pure []).symm

/-- Without any required keys, merging gives the same members, all of them optional. -/
theorem flatten_withoutRequired (s : Schema) :
    scope.flatten declaring s.withoutRequired typeName =
      allOptional (scope.flatten declaring s typeName) :=
  flatten_withoutRequired_of_members fun m _ => memberParts_withoutRequired m

/-- The members of a record with `allOf` are the first occurrences among all that its node and the
nodes merged into it supply, each with its own properties and required keys. Other required keys
make no difference but to the fields of their own node: they come to the same members in the same
order, apart from which are required. -/
theorem flatten_eq_firsts {ms : List Member} {before after : ResolveState} (given : s.allOf ≠ [])
    (returned : Returns (scope.flatten declaring s typeName) before ms after) :
    (∃ flat, scope.Supplies typeName s before flat after ∧ ms = firsts flat) ∧
      ∀ other : Schema, other.withoutRequired = s.withoutRequired →
        ∃ others, Returns (scope.flatten declaring other typeName) before others after ∧
          others.map Member.optional = ms.map Member.optional := by
  refine ⟨supplies_of_flatten (fun _ _ _ _ _ => supplies_of_memberParts) given returned,
    fun other same => ?_⟩
  have optional : Returns (allOptional (scope.flatten declaring s typeName)) before
      (ms.map Member.optional) after :=
    returns_bind.mpr ⟨ms, after, returned, returns_pure.mpr ⟨rfl, rfl⟩⟩
  -- Without required keys both nodes are the same, so they are merged to the same members.
  rw [← flatten_withoutRequired, ← same, flatten_withoutRequired] at optional
  obtain ⟨others, _, first, last⟩ := returns_bind.mp optional
  obtain ⟨equal, rfl⟩ := returns_pure.mp last
  exact ⟨others, first, equal⟩

end Scope

/-! ### A parcel

The id is given three times and the label twice, once below another `allOf`, and the base is
included at two levels. Each node has its own required keys. -/

namespace Parcel

def pointer : Schema :=
  .node { reference := some "#/components/schemas/Base" } none none [] [] []

def typed (word : String) : Schema :=
  .node { type := some word } none none [] [] []

def object (properties : List (String × Schema)) (required : List String) : Schema :=
  .node { required } (some properties) none [] [] []

def label (required : List String) : Schema :=
  .node { required } (some [("label", typed "integer"), ("id", typed "number")]) none
    [pointer, object [("label", typed "string"), ("size", typed "number")] ["label", "own"]] [] []

def parcel (required : List String) : Schema :=
  .node { required } (some [("own", typed "boolean"), ("id", typed "string")]) none
    [pointer, label required, .node { description := some "Words" } none none [] [] [],
      object [("id", typed "integer")] []] [] []

def scope : Scope where
  table := { schemas := [("Base", object [] [])], names := [("Base", "Base")] }
  reserved := {}
  schema := "Parcel"

def field (key : String) (kind : ScalarKind) (required : Bool) : Member :=
  .field key key (.scalar kind false) required none

def members : List Member :=
  [.inclusion "Base", field "label" .string true, field "size" .decimal false,
    field "id" .decimal true, field "own" .boolean false]

/-- The state after merging. -/
def merged : ResolveState :=
  (runFrom (scope.flatten true (parcel ["id", "size"]) "Parcel") {}).2

theorem parcel_returns :
    Returns (scope.flatten true (parcel ["id", "size"]) "Parcel") {} members merged :=
  Prod.ext (eq_ok_of_toOption (by decide +kernel)) (by dsimp only [merged])

end Parcel

open Parcel in
/-- The id and the size are required by two nodes. The size belongs to another one, so it stays
optional. -/
theorem parcel_keeps_firsts :
    (parcel ["id", "size"]).allOf ≠ [] ∧
    Returns (scope.flatten true (parcel ["id", "size"]) "Parcel") {} members merged ∧
    (∃ flat, scope.Supplies "Parcel" (parcel ["id", "size"]) {} flat merged ∧
      members = firsts flat) ∧
    ∃ others, Returns (scope.flatten true (parcel ["own"]) "Parcel") {} others merged ∧
      others.map Member.optional = members.map Member.optional := by
  have given : (parcel ["id", "size"]).allOf ≠ [] := nofun
  obtain ⟨flat, others⟩ := Scope.flatten_eq_firsts given parcel_returns
  exact ⟨given, parcel_returns, flat, others (parcel ["own"]) rfl⟩

end SchemaTypes
