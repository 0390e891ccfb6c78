import SchemaTypes.Proofs.Resolve.Causes
import SchemaTypes.Proofs.Resolve.Twins

/-!
# Two resolutions of the same schemas

The same node is resolved from two states, with two sets of reserved words. As long as the states
answer every request of the node with names that correspond, both resolutions fail alike, or return
types that are the same apart from these names and the names of fields. Merging decides alike in
both, since different names correspond to different names.
-/
namespace SchemaTypes

open Data Naming Resolve ResolveState

namespace Resolve

variable {α β γ δ ι : Type}

/-- Both fail with the same error, or both succeed and the results are related. -/
inductive SameResult (related : α → β → Prop) : Except Error α → Except Error β → Prop
  | error (e : Error) : SameResult related (.error e) (.error e)
  | ok {a : α} {b : β} : related a b → SameResult related (.ok a) (.ok b)

theorem SameResult.mono {related other : α → β → Prop} {x : Except Error α} {y : Except Error β}
    (same : SameResult related x y) (weaker : ∀ a b, related a b → other a b) :
    SameResult other x y := by
  cases same with
  | error e => exact .error e
  | ok both => exact .ok (weaker _ _ both)

/-- From coupled states, the computations have the same result, and they leave coupled states. -/
def Simulates (coupled : ResolveState → ResolveState → Prop) (related : α → β → Prop)
    (m : Resolve α) (n : Resolve β) : Prop :=
  ∀ s t, coupled s t → SameResult related (runFrom m s).1 (runFrom n t).1 ∧
    coupled (runFrom m s).2 (runFrom n t).2

namespace Simulates

variable {coupled : ResolveState → ResolveState → Prop} {related : α → β → Prop}
  {relatedLater : γ → δ → Prop}

theorem pure {a : α} {b : β} (both : related a b) :
    Simulates coupled related (Pure.pure a) (Pure.pure b) :=
  fun _ _ together => ⟨.ok both, together⟩

theorem throw (e : Error) :
    Simulates coupled related (MonadExcept.throw e) (MonadExcept.throw e) :=
  fun _ _ together => ⟨.error e, together⟩

theorem bind {m : Resolve α} {n : Resolve β} {f : α → Resolve γ} {g : β → Resolve δ}
    (first : Simulates coupled related m n)
    (rest : ∀ a b, related a b → Simulates coupled relatedLater (f a) (g b)) :
    Simulates coupled relatedLater (m >>= f) (n >>= g) := by
  intro s t together
  obtain ⟨same, later⟩ := first s t together
  rw [runFrom_bind, runFrom_bind]
  generalize runFrom m s = left at same later
  generalize runFrom n t = right at same later
  obtain ⟨_, u⟩ := left
  obtain ⟨_, v⟩ := right
  cases same with
  | error e => exact ⟨.error e, later⟩
  | ok both =>
    -- The rest goes on from coupled states, with related results of the first part.
    exact rest _ _ both u v later

theorem lift_bind {x : Except Error ι} {f : ι → Resolve γ} {g : ι → Resolve δ}
    (rest : ∀ a, x = .ok a → Simulates coupled relatedLater (f a) (g a)) :
    Simulates coupled relatedLater (liftM x >>= f) (liftM x >>= g) := by
  cases x with
  | error e => exact throw e
  | ok a => exact rest a rfl

/-- Related results stay related when each is mapped. -/
theorem map {m : Resolve α} {n : Resolve β} {f : α → γ} {g : β → δ}
    (first : Simulates coupled related m n)
    (results : ∀ a b, related a b → relatedLater (f a) (g b)) :
    Simulates coupled relatedLater (m >>= fun a => Pure.pure (f a))
      (n >>= fun b => Pure.pure (g b)) :=
  first.bind fun a b both => pure (results a b both)

/-- If both computations return, their results are related. -/
theorem of_returns {m : Resolve α} {n : Resolve β} (simulates : Simulates coupled related m n)
    {s t s' t' : ResolveState} {a : α} {b : β} (together : coupled s t)
    (first : Returns m s a s') (second : Returns n t b t') : related a b := by
  obtain ⟨same, -⟩ := simulates s t together
  rw [Returns] at first second
  rw [first, second] at same
  cases same with
  | ok both => exact both

end Simulates

end Resolve

/-! ### Coupled states -/

/-- The effects keep the states coupled, where only some requests are made; these are answered with
names that correspond under the permutation, which moves no name of a schema. -/
structure Coupling (table : SchemaTable) (σ : Equiv.Perm String) (asked : String → Prop)
    (coupled : ResolveState → ResolveState → Prop) : Prop where
  fixed : ∀ {pointer name}, table.resolvePointer pointer = some name → σ name = name
  apply : ∀ {s t} (e : Effect), (∀ q values, e = .request q values → asked q) → coupled s t →
    coupled (e.apply s) (e.apply t)
  answers : ∀ {s t q name}, asked q → coupled s t → s.enumFor? q = some name →
    t.enumFor? q = some (σ name)

/-- All requests among the effects are of the given kind. -/
def Asks (asked : String → Prop) (causes : Effect → Prop) : Prop :=
  ∀ q values, causes (.request q values) → asked q

namespace Scope

/-- The scope with other reserved words. -/
abbrev withWords (scope : Scope) (words : ReservedWords) : Scope :=
  { scope with reserved := words }

variable {scope : Scope} {words : ReservedWords} {σ : Equiv.Perm String} {asked : String → Prop}
  {coupled : ResolveState → ResolveState → Prop} {s : Schema} {typeName pointer : String}
  {declaring : Bool}

section Single

variable (coupling : Coupling scope.table σ asked coupled)
include coupling

theorem simulates_referenceTarget (pointer : String) :
    Simulates coupled (fun a b => b = a ∧ σ a = a) (scope.referenceTarget pointer)
      ((scope.withWords words).referenceTarget pointer) := by
  unfold referenceTarget
  cases found : scope.table.resolvePointer pointer with
  | none => exact .throw _
  | some name =>
    intro s t together
    have kept := coupling.apply (.refer name) (by simp) together
    exact ⟨.ok ⟨rfl, coupling.fixed found⟩, kept⟩

theorem simulates_resolveReference (pointer : String) (nullable : Bool) :
    Simulates coupled (TypeExpr.Twins σ scope.reserved words)
      (scope.resolveReference pointer nullable)
      ((scope.withWords words).resolveReference pointer nullable) := by
  refine (simulates_referenceTarget coupling pointer).map fun target twin both => ?_
  obtain ⟨rfl, fixed⟩ := both
  let admits := nullable || (scope.table.get? twin).any Schema.admitsNull
  have twins : TypeExpr.Twins σ scope.reserved words (.reference twin admits)
      (.reference (σ twin) admits) := .reference twin admits
  rwa [fixed] at twins

theorem simulates_resolveEnum (literals : List Json) (nullable : Bool) (typeName : String)
    (asks : Asks asked fun e => ∃ v vs null,
      scope.enumLiterals literals = .ok (v :: vs, null) ∧ e = .request typeName (v :: vs)) :
    Simulates coupled (TypeExpr.Twins σ scope.reserved words)
      (scope.resolveEnum literals nullable typeName)
      ((scope.withWords words).resolveEnum literals nullable typeName) := by
  have sameRead : (scope.withWords words).enumLiterals literals = scope.enumLiterals literals :=
    scope.enumLiterals_congr (scope.withWords words) rfl literals
  rw [resolveEnum, resolveEnum, sameRead]
  refine .lift_bind fun read given => ?_
  obtain ⟨_ | ⟨v, vs⟩, null⟩ := read
  · exact .pure (.scalar .string _)
  · intro s t together
    have isAsked : asked typeName := asks typeName (v :: vs) ⟨v, vs, null, given, rfl⟩
    have kept : coupled (s.request typeName (v :: vs)) (t.request typeName (v :: vs)) := by
      refine coupling.apply (.request typeName (v :: vs)) (fun q values same => ?_) together
      cases same
      exact isAsked
    -- After the request both states have an answer, and the answers correspond.
    have answer := coupling.answers isAsked kept (enumFor?_request s typeName (v :: vs))
    have twinAnswer := enumFor?_request t typeName (v :: vs)
    have same := Option.some.inj (twinAnswer.symm.trans answer)
    let name := (s.enums.synthesize s.taken typeName (v :: vs)).1
    have twins : TypeExpr.Twins σ scope.reserved words (.reference name (nullable || null))
        (.reference (σ name) (nullable || null)) := .reference name _
    rw [← same] at twins
    exact ⟨.ok twins, kept⟩

end Single

/-! ### Lists -/

/-- The resolution of the node is simulated by the one with other reserved words, wherever the node
asks for an enum only where it may. -/
def Simulated (scope : Scope) (words : ReservedWords) (σ : Equiv.Perm String)
    (asked : String → Prop) (coupled : ResolveState → ResolveState → Prop) (s : Schema) : Prop :=
  ∀ typeName, Asks asked (scope.Causes s typeName) →
    Simulates coupled (TypeExpr.Twins σ scope.reserved words) (scope.resolve s typeName)
      ((scope.withWords words).resolve s typeName)

/-- The same for what the node contributes to a merged record. -/
def SimulatedParts (scope : Scope) (declaring : Bool) (words : ReservedWords)
    (σ : Equiv.Perm String) (asked : String → Prop)
    (coupled : ResolveState → ResolveState → Prop) (s : Schema) : Prop :=
  ∀ typeName, Asks asked (scope.Contributes s typeName) →
    Simulates coupled (Member.TwinLists σ scope.reserved words)
      (scope.memberParts declaring s typeName)
      ((scope.withWords words).memberParts declaring s typeName)

theorem simulates_resolveFields {ps : List (String × Schema)}
    (properties : ∀ p ∈ ps, scope.Simulated words σ asked coupled p.2) (required : List String)
    (typeName : String) (asks : Asks asked (scope.CausesOfFields ps typeName)) :
    Simulates coupled (Member.TwinLists σ scope.reserved words)
      (scope.resolveFields ps required typeName)
      ((scope.withWords words).resolveFields ps required typeName) := by
  induction ps with
  | nil => exact .pure .nil
  | cons p rest ih =>
    -- What is asked for below one property, or below the later ones, is asked for below all.
    have first := properties p List.mem_cons_self (propertyTypeName typeName (Text.trim p.1))
      fun q values below => asks q values ⟨p, List.mem_cons_self, below⟩
    have later := ih (fun q member => properties q (List.mem_cons_of_mem _ member))
      fun q values ⟨r, member, below⟩ => asks q values ⟨r, List.mem_cons_of_mem _ member, below⟩
    refine first.bind fun t t' types => later.map fun fields fields' lists => ?_
    have field := Member.Twins.field types (Text.trim p.1)
      (required.any fun r => Text.trim r == Text.trim p.1) (scope.fieldDescription p.2)
    exact field.singleton.append lists

theorem simulates_resolveAlternatives {ss : List Schema}
    (alternatives : ∀ s ∈ ss, scope.Simulated words σ asked coupled s) (typeName : String)
    (number : Nat)
    (asks : Asks asked fun e => ∃ i c, ss[i]? = some c ∧
      scope.Causes c (typeName ++ "Variant" ++ toString (i + number)) e)
    {types types' : List TypeExpr}
    (lists : TypeExpr.TwinLists σ scope.reserved words types types') :
    Simulates coupled (TypeExpr.TwinLists σ scope.reserved words)
      (scope.resolveAlternatives ss typeName number types)
      ((scope.withWords words).resolveAlternatives ss typeName number types') := by
  induction ss generalizing number types types' with
  | nil => exact .pure lists
  | cons s rest ih =>
    have first := alternatives s List.mem_cons_self (typeName ++ "Variant" ++ toString number)
      fun q values below => asks q values ⟨0, s, rfl, by simpa using below⟩
    refine first.bind fun t t' twins => ?_
    have later c (member : c ∈ rest) := alternatives c (List.mem_cons_of_mem _ member)
    refine ih later (number + 1) (fun q values below => ?_) (lists.pushType twins)
    -- An alternative of the rest stands one place further back in the list, with the same number.
    obtain ⟨i, c, listed, below⟩ := below
    exact asks q values ⟨i + 1, c, listed, by rwa [Nat.add_assoc, Nat.add_comm 1]⟩

theorem simulates_mergeMembers {ss : List Schema}
    (members : ∀ s ∈ ss, scope.SimulatedParts declaring words σ asked coupled s)
    (asks : Asks asked fun e => ∃ s ∈ ss, scope.Contributes s typeName e)
    {merged merged' : List Member}
    (lists : Member.TwinLists σ scope.reserved words merged merged') :
    Simulates coupled (Member.TwinLists σ scope.reserved words)
      (scope.mergeMembers declaring ss typeName merged)
      ((scope.withWords words).mergeMembers declaring ss typeName merged') := by
  induction ss generalizing merged merged' with
  | nil => exact .pure lists
  | cons s rest ih =>
    have first := members s List.mem_cons_self typeName
      fun q values below => asks q values ⟨s, List.mem_cons_self, below⟩
    refine first.bind fun parts parts' added => ?_
    have later c (member : c ∈ rest) := members c (List.mem_cons_of_mem _ member)
    refine ih later (fun q values below => ?_) (lists.pushMembers added)
    obtain ⟨c, member, below⟩ := below
    exact asks q values ⟨c, List.mem_cons_of_mem _ member, below⟩

/-! ### Nodes -/

section Children

variable (coupling : Coupling scope.table σ asked coupled)
  (resolves : ∀ c ∈ s.children, scope.Simulated words σ asked coupled c)
  (contributes : ∀ c ∈ s.children, scope.SimulatedParts declaring words σ asked coupled c)

include resolves contributes

theorem simulates_flatten_of_children (asks : Asks asked (scope.Contributes s typeName)) :
    Simulates coupled (Member.TwinLists σ scope.reserved words)
      (scope.flatten declaring s typeName)
      ((scope.withWords words).flatten declaring s typeName) := by
  have members m (member : m ∈ s.allOf) :=
    contributes m (Schema.mem_children_of_allOf member)
  have asksMembers : Asks asked fun e => ∃ m ∈ s.allOf, scope.Contributes m typeName e :=
    fun q values ⟨m, member, below⟩ => asks q values (.member member below)
  have merged := simulates_mergeMembers members asksMembers .nil
  unfold flatten
  refine merged.bind fun ms ms' lists => ?_
  cases found : s.properties with
  | none => exact .pure lists
  | some ps =>
    have properties p (member : p ∈ ps) :=
      resolves p.2 (Schema.mem_children_of_property found member)
    have asksFields : Asks asked (scope.CausesOfFields ps typeName) :=
      fun q values ⟨p, member, below⟩ => asks q values (.field found member below)
    have fields := simulates_resolveFields properties s.facets.required typeName asksFields
    exact fields.map fun _ _ added => lists.pushMembers added

include coupling

theorem simulates_partsOfShare_of_children (type : Option NodeType)
    (asks : Asks asked (scope.Contributes s typeName)) :
    Simulates coupled (Member.TwinLists σ scope.reserved words)
      (scope.partsOfShare declaring s typeName (s.share type))
      ((scope.withWords words).partsOfShare declaring s typeName (s.share type)) := by
  cases found : s.share type with
  | nested => exact simulates_flatten_of_children resolves contributes asks
  | refused kind => exact .throw _
  | fields ps =>
    have given := Schema.share_eq_fields found
    have properties p (member : p ∈ ps) :=
      resolves p.2 (Schema.mem_children_of_property given member)
    exact simulates_resolveFields properties s.facets.required typeName
      fun q values ⟨p, member, below⟩ => asks q values (.field given member below)
  | inclusion pointer =>
    refine (simulates_referenceTarget coupling pointer).bind fun target twin both => ?_
    obtain ⟨rfl, fixed⟩ := both
    have inclusion : Member.Twins σ scope.reserved words (.inclusion twin) (.inclusion twin) :=
      .inclusion fixed
    cases declaring with
    | false => exact .pure inclusion.singleton
    | true => exact .lift_bind fun _ _ => .pure inclusion.singleton
  | nothing => exact .pure .nil

end Children

theorem simulates_typeOfShape_of_children (coupling : Coupling scope.table σ asked coupled)
    (resolves : ∀ c ∈ s.children, scope.Simulated words σ asked coupled c)
    (contributes : ∀ c ∈ s.children, scope.SimulatedParts false words σ asked coupled c)
    (type : Option NodeType) (asks : Asks asked (scope.CausesOfShape s typeName (s.shape type))) :
    Simulates coupled (TypeExpr.Twins σ scope.reserved words)
      (scope.typeOfShape s typeName (s.shape type))
      ((scope.withWords words).typeOfShape s typeName (s.shape type)) := by
  have parts : ∀ c ∈ (s.shape type).parts, scope.Simulated words σ asked coupled c :=
    fun c part => resolves c (Schema.mem_children_of_parts part)
  -- What is merged comes from the node itself; every other shape brings its own parts along.
  generalize s.shape type = shape at parts asks ⊢
  cases shape with
  | merged =>
    have flattened := simulates_flatten_of_children resolves contributes asks
    exact flattened.map fun _ _ lists => .record lists _
  | union ss =>
    have alternatives := simulates_resolveAlternatives parts typeName 1 asks .nil
    exact alternatives.map fun _ _ lists => .union lists _
  | fields ps =>
    have properties p (member : p ∈ ps) := parts p.2 (List.mem_map_of_mem member)
    have fields := simulates_resolveFields properties s.facets.required typeName asks
    exact fields.map fun _ _ lists => .record lists _
  | reference pointer => exact simulates_resolveReference coupling pointer _
  | array items =>
    cases items with
    | none => exact .pure (.array (.any false) _)
    | some items =>
      have element := parts items List.mem_cons_self (typeName ++ "Item") asks
      exact element.map fun _ _ twins => .array twins _
  | literals literals => exact simulates_resolveEnum coupling literals _ typeName asks
  | emptyRecord => exact .pure (.record .nil _)
  | scalar kind => exact .pure (.scalar kind _)
  | any => exact .pure (.any _)

/-! ### Resolutions -/

section Coupled

variable (coupling : Coupling scope.table σ asked coupled)
include coupling

/-- Resolution and merging call each other, so one induction is on both. -/
private theorem simulated_both (s : Schema) :
    scope.Simulated words σ asked coupled s ∧
      ∀ declaring, scope.SimulatedParts declaring words σ asked coupled s := by
  induction s using Schema.induction with
  | step s ih =>
    have resolves c (child : c ∈ s.children) := (ih c child).1
    have contributes (declaring : Bool) c (child : c ∈ s.children) := (ih c child).2 declaring
    constructor
    · intro typeName asks
      rw [resolve_eq, resolve_eq]
      refine .lift_bind fun type named => ?_
      refine simulates_typeOfShape_of_children coupling resolves (contributes false) type ?_
      exact fun q values below => asks q values ((causes_iff ⟨type, named, rfl⟩).mpr below)
    · intro declaring typeName asks
      rw [memberParts_eq, memberParts_eq]
      refine .lift_bind fun type _ => ?_
      exact simulates_partsOfShare_of_children coupling resolves (contributes declaring) type asks

/-- Inline resolutions of a node from coupled states have the same result. -/
theorem simulates_resolve (s : Schema) : scope.Simulated words σ asked coupled s :=
  (simulated_both coupling s).1

theorem simulates_memberParts (declaring : Bool) (s : Schema) :
    scope.SimulatedParts declaring words σ asked coupled s :=
  (simulated_both coupling s).2 declaring

theorem simulates_flatten (declaring : Bool) (s : Schema) (typeName : String)
    (asks : Asks asked (scope.Contributes s typeName)) :
    Simulates coupled (Member.TwinLists σ scope.reserved words)
      (scope.flatten declaring s typeName)
      ((scope.withWords words).flatten declaring s typeName) :=
  simulates_flatten_of_children (fun c _ => simulates_resolve coupling c)
    (fun c _ => simulates_memberParts coupling declaring c) asks

end Coupled

end Scope
end SchemaTypes
