import SchemaTypes.Proofs.Resolve.Kinds

/-!
# Null behind a name

A reference looks at the node of the schema that it names, and at no other. So it admits null
exactly if the type of that node does, as long as the node is no reference itself and null literals
stand in strings only.
-/
namespace SchemaTypes

open Resolve

namespace Schema

/-- A node that says nothing but what it refers to. -/
def refer (pointer : String) : Schema :=
  .node { reference := some pointer } none none [] [] []

/-- The type word `string` decides on the type of the node. -/
def isString (s : Schema) : Bool :=
  !s.hasComposition && s.properties.isNone && s.facets.type == some "string"

end Schema

namespace Scope

variable {scope : Scope} {s : Schema} {t : TypeExpr} {type : Option NodeType}
  {pointer name typeName : String} {before after : ResolveState}

/-- A string with literals is decided by them. -/
theorem shape_of_isString (named : scope.nodeType s.facets = .ok type)
    (isString : s.isString = true) (given : s.facets.literals ≠ []) :
    s.shape type = .literals s.facets.literals := by
  simp only [Schema.isString, Bool.and_eq_true, Bool.not_eq_true', beq_iff_eq,
    Option.isNone_iff_eq_none] at isString
  obtain ⟨⟨plain, noProperties⟩, typed⟩ := isString
  obtain rfl : some (.scalar .string) = type := by
    simpa [nodeType, typed, NodeType.ofWord?] using named
  rw [Schema.shape_eq_ofType plain noProperties, Shape.ofType]
  cases found : s.facets.literals with
  | nil => exact absurd found given
  | cons l ls => rfl

/-! ### Types that admit null -/

/-- The type of a reference admits null where the node says so or its target does. -/
theorem TypeOf.of_isReference (named : scope.nodeType s.facets = .ok type)
    (typed : scope.TypeOf s (s.shape type) t) (isReference : s.isReference = true) :
    ∃ target, t = .reference target
      (s.isNullable || (scope.table.get? target).any Schema.admitsNull) := by
  obtain ⟨pointer, found⟩ := (shape_eq_reference_iff named).mpr isReference
  rw [found] at typed
  cases typed with
  | @reference _ target _ => exact ⟨target, rfl⟩

/-- The type of any other node admits null where the node does, if it is nullable or a string, or
has no null among its literals. -/
theorem TypeOf.nullable_eq (named : scope.nodeType s.facets = .ok type)
    (typed : scope.TypeOf s (s.shape type) t) (notReference : s.isReference = false)
    (nulls : s.facets.literals.any Json.isNull = true → s.isString = true ∨ s.isNullable = true) :
    t.nullable = s.admitsNull := by
  have noReference pointer : s.shape type ≠ .reference pointer := by
    intro found
    have isReference := (shape_eq_reference_iff named).mp ⟨pointer, found⟩
    rw [notReference] at isReference
    cases isReference
  have ofLiterals literals (found : s.shape type = .literals literals) :
      literals = s.facets.literals := Schema.shape_eq_literals found
  -- Away from the literals, null is what the node says about itself.
  have other (noLiterals : ∀ literals, s.shape type ≠ .literals literals) :
      s.isNullable = s.admitsNull := by
    unfold Schema.admitsNull
    cases null : s.facets.literals.any Json.isNull with
    | false => rw [Bool.or_false]
    | true =>
      rcases nulls null with isString | isNullable
      · have given : s.facets.literals ≠ [] := by
          obtain ⟨l, member, -⟩ := List.any_eq_true.mp null
          exact List.ne_nil_of_mem member
        exact absurd (shape_of_isString named isString given) (noLiterals _)
      · rw [isNullable, Bool.true_or]
  generalize s.shape type = shape at typed noReference ofLiterals other
  cases typed with
  | @reference pointer => exact absurd rfl (noReference pointer)
  | nulls literals =>
    rw [Schema.admitsNull, ← ofLiterals literals rfl]
    rfl
  | enum literals =>
    rw [Schema.admitsNull, ← ofLiterals literals rfl]
    rfl
  | merged | fields | emptyRecord | union | array | scalar | any => exact other nofun

/-- A node that only refers has the name of its target as its type, and admits null where the
target's node does. -/
theorem returns_resolve_refer (designated : scope.table.resolvePointer pointer = some name)
    (component : scope.table.get? name = some s) (typeName : String) (before : ResolveState) :
    Returns (scope.resolve (Schema.refer pointer) typeName) before (.reference name s.admitsNull)
      { before with referenced := before.referenced.insert name } := by
  have untyped : scope.nodeType (Schema.refer pointer).facets = .ok none := rfl
  have shape : (Schema.refer pointer).shape none = .reference pointer := rfl
  have looked : Returns (scope.referenceTarget pointer) before name
      { before with referenced := before.referenced.insert name } :=
    referenceTarget_returns.mpr ⟨designated, rfl⟩
  rw [resolve_eq, returns_bind]
  refine ⟨none, before, returns_lift.mpr ⟨untyped, rfl⟩, ?_⟩
  rw [shape]
  refine returns_bind.mpr ⟨name, _, looked, returns_pure.mpr ⟨?_, rfl⟩⟩
  have notNullable : (Schema.refer pointer).isNullable = false := rfl
  rw [notNullable, component, Option.any_some, Bool.false_or]

end Scope

variable {scope : Scope} {s : Schema} {t : TypeExpr} {pointer name typeName : String}
  {before after : ResolveState}

/-- A plain reference admits null exactly if the type of the node that it names does. If that node
is a reference in turn, only its own marks count, and not the node that it leads to. -/
theorem refer_nullable_iff (designated : scope.table.resolvePointer pointer = some name)
    (component : scope.table.get? name = some s)
    (resolved : Returns (scope.resolve s typeName) before t after)
    (nulls : s.facets.literals.any Json.isNull = true → s.isString = true ∨ s.isNullable = true)
    (hint : String) (start : ResolveState) :
    ∃ u final, Returns (scope.resolve (.refer pointer) hint) start u final ∧
      (s.isReference = false → (u.nullable = true ↔ t.nullable = true)) ∧
      (s.isReference = true → (u.nullable = true ↔ s.isNullable = true) ∧
        ∃ target, t = .reference target
          (s.isNullable || (scope.table.get? target).any Schema.admitsNull)) := by
  have looked := Scope.returns_resolve_refer designated component hint start
  have resolves : scope.Resolves s t := ⟨typeName, before, after, resolved⟩
  obtain ⟨type, named, typed⟩ := resolves.typeOf
  refine ⟨_, _, looked, fun notReference => ?_, fun isReference => ?_⟩
  · have same := typed.nullable_eq named notReference nulls
    rw [same]
    exact Iff.rfl
  · refine ⟨?_, typed.of_isReference named isReference⟩
    have notString : s.isString = false := by
      simp only [Schema.isReference, Schema.isBareReference, Bool.and_eq_true, Bool.or_eq_true,
        beq_iff_eq] at isReference
      obtain ⟨-, -, untyped | object⟩ := isReference
      · simp [Schema.isString, untyped]
      · simp [Schema.isString, object]
    have marked : s.facets.literals.any Json.isNull = true → s.isNullable = true :=
      fun null => (nulls null).resolve_left (by simp [notString])
    rw [TypeExpr.nullable, Schema.admitsNull, Bool.or_eq_true]
    exact or_iff_left_of_imp marked

/-- A plain reference to the schema admits null exactly if the type of the schema's node does. -/
def Scope.KeepsNull (scope : Scope) (name : String) (s : Schema) : Prop :=
  ∀ pointer hint typeName start final before after t u,
    scope.table.resolvePointer pointer = some name →
    Returns (scope.resolve (.refer pointer) hint) start u final →
    Returns (scope.resolve s typeName) before t after → (u.nullable = true ↔ t.nullable = true)

/-! ### A tariff

A price admits null, and so does the mood of a customer. A fee is a price, and null is the lowest of
the levels.
-/

namespace Tariff

def price : Schema :=
  .node { type := some "number", nullable := some true } none none [] [] []

def mood : Schema :=
  .node { type := some "string", literals := [.text "fine", .null] } none none [] [] []

def level : Schema :=
  .node { type := some "integer", literals := [.null, .number (.int 1)] } none none [] [] []

def fee : Schema :=
  .refer (Document.Pointer.toSchema "Price")

def names : List String := ["Price", "Mood", "Fee", "Level"]

def tariff : Scope where
  table := {
    schemas := names.zip [price, mood, fee, level]
    names := names.zip names }
  reserved := {}
  schema := "Tariff"

/-- A node of the tariff resolves as it is evaluated to. -/
theorem returns_of_eval (node : Schema) (type : TypeExpr)
    (evaluated : (runFrom (tariff.resolve node "Entry") {}).1.toOption = some type) :
    Returns (tariff.resolve node "Entry") {} type (runFrom (tariff.resolve node "Entry") {}).2 :=
  Prod.ext (eq_ok_of_toOption evaluated) rfl

end Tariff

theorem refer_mood_nullable :
    Tariff.tariff.table.resolvePointer "#/Mood" = some "Mood" ∧
    Tariff.tariff.table.get? "Mood" = some Tariff.mood ∧
    (∃ after, Returns (Tariff.tariff.resolve Tariff.mood "Entry") {} (.reference "Entry" true)
      after) ∧
    (Tariff.mood.facets.literals.any Json.isNull = true → Tariff.mood.isString = true ∨
      Tariff.mood.isNullable = true) ∧
    ∃ u final, Returns (Tariff.tariff.resolve (.refer "#/Mood") "Visit") {} u final ∧
      u.nullable = true := by
  have designated : Tariff.tariff.table.resolvePointer "#/Mood" = some "Mood" := by decide +kernel
  have resolved := Tariff.returns_of_eval Tariff.mood (.reference "Entry" true)
    (by decide +kernel)
  have nulls : Tariff.mood.facets.literals.any Json.isNull = true →
      Tariff.mood.isString = true ∨ Tariff.mood.isNullable = true := fun _ => Or.inl (by decide)
  obtain ⟨u, final, returned, plain, -⟩ :=
    refer_nullable_iff designated rfl resolved nulls "Visit" {}
  exact ⟨designated, rfl, ⟨_, resolved⟩, nulls, u, final, returned, (plain (by decide)).mpr rfl⟩

/-- A reference to a reference loses the null of the node that both lead to, and a null among the
literals of a number counts for the reference alone. -/
theorem not_always_keepsNull :
    (¬ ∀ (scope : Scope) (name : String) (s : Schema), scope.table.get? name = some s →
      s.facets.literals.any Json.isNull = false → scope.KeepsNull name s) ∧
    ¬ ∀ (scope : Scope) (name : String) (s : Schema), scope.table.get? name = some s →
      s.isReference = false → scope.KeepsNull name s := by
  refine ⟨fun always => ?_, fun always => ?_⟩
  · have keeps := always Tariff.tariff "Fee" Tariff.fee rfl rfl
    have designated : Tariff.tariff.table.resolvePointer "#/Fee" = some "Fee" := by decide +kernel
    have outer := Scope.returns_resolve_refer (s := Tariff.fee) designated rfl "Entry" {}
    have inner := Tariff.returns_of_eval Tariff.fee (.reference "Price" true)
      (by decide +kernel)
    exact absurd ((keeps _ _ _ _ _ _ _ _ _ designated outer inner).mpr rfl) (by decide)
  · have keeps := always Tariff.tariff "Level" Tariff.level rfl (by decide)
    have designated : Tariff.tariff.table.resolvePointer "#/Level" = some "Level" := by
      decide +kernel
    have outer := Scope.returns_resolve_refer (s := Tariff.level) designated rfl "Entry" {}
    have inner := Tariff.returns_of_eval Tariff.level (.scalar .int false)
      (by decide +kernel)
    exact absurd ((keeps _ _ _ _ _ _ _ _ _ designated outer inner).mp (by decide)) (by decide)

end SchemaTypes
