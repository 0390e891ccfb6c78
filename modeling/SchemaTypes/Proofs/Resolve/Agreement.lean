import SchemaTypes.Proofs.Data.Entries
import SchemaTypes.Proofs.Resolve.Computation
import SchemaTypes.Proofs.Resolve.EnumTable
import SchemaTypes.Proofs.Resolve.Shape

/-!
# Declaration agrees with inline resolution

Declaring a schema and resolving its node under the schema's name look the same shape up and go
through the same parts. Where no inclusion leads back to the schema, both fail alike or come to
results that correspond.
-/
namespace SchemaTypes.Scope

open Data Resolve

variable {α β : Type} {scope : Scope} {s : Schema}

/-- From `before` the computation fails because an inclusion leads back to the schema. -/
def StopsAtCycle (scope : Scope) (m : Resolve α) (before : ResolveState) : Prop :=
  ∃ target path after, scope.table.inclusionPath? target scope.schema = some path ∧
    runFrom m before = (.error (.cyclicInclusion (scope.schema :: path)), after)

/-! ### Checked inclusions -/

/-- The checked computation is the plain one where it does not stop at a cycle. -/
def Guards (scope : Scope) (checked plain : Resolve α) : Prop :=
  ∀ before, scope.StopsAtCycle checked before ∨ runFrom checked before = runFrom plain before

theorem Guards.refl (m : Resolve α) : scope.Guards m m :=
  fun _ => Or.inr rfl

theorem StopsAtCycle.bind {m : Resolve α} {before : ResolveState}
    (stops : scope.StopsAtCycle m before) (f : α → Resolve β) :
    scope.StopsAtCycle (m >>= f) before := by
  obtain ⟨target, path, after, back, failed⟩ := stops
  exact ⟨target, path, after, back, by rw [runFrom_bind, failed]⟩

theorem Guards.bind {m n : Resolve α} {f g : α → Resolve β} (first : scope.Guards m n)
    (rest : ∀ a, scope.Guards (f a) (g a)) : scope.Guards (m >>= f) (n >>= g) := by
  intro before
  rcases first before with stops | same
  · exact Or.inl (stops.bind f)
  · simp only [StopsAtCycle, runFrom_bind, same]
    rcases runFrom n before with ⟨e | a, after⟩
    · exact Or.inr rfl
    · exact rest a after

theorem checkInclusion_guards (target : String) :
    scope.Guards (liftM (scope.checkInclusion target)) (pure ()) := by
  intro before
  unfold checkInclusion
  split
  next path back => exact Or.inl ⟨target, path, before, back, rfl⟩
  next => exact Or.inr rfl

theorem mergeMembers_guards {ss : List Schema}
    (members : ∀ m ∈ ss, ∀ typeName,
      scope.Guards (scope.memberParts true m typeName) (scope.memberParts false m typeName))
    (typeName : String) (merged : List Member) :
    scope.Guards (scope.mergeMembers true ss typeName merged)
      (scope.mergeMembers false ss typeName merged) := by
  induction ss generalizing merged with
  | nil => exact Guards.refl _
  | cons m rest ih =>
    rw [mergeMembers, mergeMembers]
    refine (members m List.mem_cons_self typeName).bind fun parts => ?_
    exact ih (fun r member => members r (List.mem_cons_of_mem _ member)) _

private theorem flatten_guards_of_members
    (members : ∀ m ∈ s.allOf, ∀ typeName,
      scope.Guards (scope.memberParts true m typeName) (scope.memberParts false m typeName))
    (typeName : String) :
    scope.Guards (scope.flatten true s typeName) (scope.flatten false s typeName) :=
  (mergeMembers_guards members typeName []).bind fun _ => Guards.refl _

/-- Declaring or not, a member of `allOf` contributes the same. -/
theorem memberParts_guards (s : Schema) (typeName : String) :
    scope.Guards (scope.memberParts true s typeName) (scope.memberParts false s typeName) := by
  induction s using Schema.induction generalizing typeName with
  | step s ih =>
    rw [memberParts_eq, memberParts_eq]
    refine (Guards.refl _).bind fun type => ?_
    cases s.share type with
    | nested =>
      exact flatten_guards_of_members
        (fun m member => ih m (Schema.mem_children_of_allOf member)) typeName
    | inclusion pointer =>
      refine (Guards.refl _).bind fun target => ?_
      exact (checkInclusion_guards target).bind fun _ => Guards.refl _
    | _ => exact Guards.refl _

theorem flatten_guards (s : Schema) (typeName : String) :
    scope.Guards (scope.flatten true s typeName) (scope.flatten false s typeName) :=
  flatten_guards_of_members (fun m _ => memberParts_guards m) typeName

/-! ### Corresponding results -/

/-- A type with the state after its resolution, and the outcome of the declaration that stands for
it with the state after that. Only an enum is declared differently: the type refers to the enum that
the request for the schema's name is answered with, and the declaration owns that name. -/
inductive Corresponds (scope : Scope) (s : Schema) (resolved : ResolveState) :
    TypeExpr → Outcome → ResolveState → Prop
  | record (members : List Member) (nullable : Bool) :
    Corresponds scope s resolved (.record members nullable)
      (.declared (.record scope.schema members s.summary)) resolved
  | union (members : List TypeExpr) (nullable : Bool) :
    Corresponds scope s resolved (.union members nullable)
      (.declared (.union scope.schema members s.summary)) resolved
  | array (element : TypeExpr) (nullable : Bool) :
    Corresponds scope s resolved (.array element nullable)
      (.declared (.array scope.schema element nullable s.summary)) resolved
  | scalar (kind : ScalarKind) (nullable : Bool) :
    Corresponds scope s resolved (.scalar kind nullable)
      (.declared (.scalar scope.schema kind nullable s.summary)) resolved
  | any {nullable : Bool} : s.declaredNullability = some nullable →
    Corresponds scope s resolved (.any nullable)
      (.declared (.any scope.schema nullable s.summary)) resolved
  | vacuous : s.declaredNullability = none →
    Corresponds scope s resolved (.any false) (.vacuous s.summary) resolved
  | inclusion {target : String} (nullable : Bool) :
    s.facets.reference.bind scope.table.resolvePointer = some target →
    Corresponds scope s resolved (.reference target nullable)
      (.declared (.record scope.schema [.inclusion target] s.summary)) resolved
  | enum {name : String} (nullable : Bool) {declared : ResolveState} :
    Entries.get? resolved.enums.aliases scope.schema = some name →
    (declared.enums.get? scope.schema).isSome →
    Corresponds scope s resolved (.reference name nullable) .enum declared

/-- Both computations fail with one error, or their results correspond, unless the declaration stops
at a cycle. -/
def Agrees (scope : Scope) (s : Schema) (declaration : Resolve Outcome)
    (resolution : Resolve TypeExpr) (before : ResolveState) : Prop :=
  scope.StopsAtCycle declaration before ∨
  (∃ e after, runFrom declaration before = (.error e, after) ∧
    runFrom resolution before = (.error e, after)) ∨
  ∃ t resolved outcome declared, Returns resolution before t resolved ∧
    Returns declaration before outcome declared ∧ Corresponds scope s resolved t outcome declared

theorem Agrees.pure {t : TypeExpr} {outcome : Outcome} {before : ResolveState}
    (corresponds : Corresponds scope s before t outcome before) :
    scope.Agrees s (pure outcome) (pure t) before :=
  Or.inr (Or.inr ⟨t, before, outcome, before, rfl, rfl, corresponds⟩)

/-- Agreement goes through a common first part, checked in the declaration. -/
theorem Agrees.bind {m n : Resolve α} {f : α → Resolve Outcome} {g : α → Resolve TypeExpr}
    {before : ResolveState} (first : scope.Guards m n)
    (rest : ∀ a after, Returns n before a after → scope.Agrees s (f a) (g a) after) :
    scope.Agrees s (m >>= f) (n >>= g) before := by
  rcases first before with stops | same
  · exact Or.inl (stops.bind f)
  · cases run : runFrom n before with
    | mk result after =>
      cases result with
      | error e =>
        refine Or.inr (Or.inl ⟨e, after, ?_, ?_⟩)
        · rw [runFrom_bind, same, run]
        · rw [runFrom_bind, run]
      | ok a =>
        -- Both parts left the same state, from which the rest is compared.
        rw [run] at same
        simpa only [Agrees, StopsAtCycle, Returns, runFrom_bind, same, run] using rest a after run

/-- A reference is declared as a record that includes its target. -/
theorem inclusionRecord_agrees {pointer : String} (found : s.facets.reference = some pointer)
    (nullable : Bool) (before : ResolveState) :
    scope.Agrees s (scope.inclusionRecord pointer s.summary)
      (scope.resolveReference pointer nullable) before := by
  refine Agrees.bind (Guards.refl _) fun target after returned => ?_
  have designated : s.facets.reference.bind scope.table.resolvePointer = some target := by
    rw [found]
    exact (referenceTarget_returns.mp returned).1
  -- The resolution has nothing in the place of the check.
  rw [← pure_bind () fun _ => (Pure.pure (TypeExpr.reference _ _) : Resolve TypeExpr)]
  refine Agrees.bind (checkInclusion_guards target) fun _ later unchanged => ?_
  obtain ⟨-, rfl⟩ := returns_pure.mp unchanged
  exact Agrees.pure (.inclusion _ designated)

/-- A list of literals without a text among them is one of nulls. -/
theorem null_of_enumLiterals {literals : List Json} {null : Bool} (given : literals ≠ [])
    (read : scope.enumLiterals literals = .ok ([], null)) : null = true := by
  cases literals with
  | nil => exact absurd rfl given
  | cons l rest =>
    cases l with
    | text value =>
      rw [enumLiterals] at read
      obtain ⟨⟨values, _⟩, -, last⟩ := bind_eq_ok.mp read
      cases last
    | null =>
      rw [enumLiterals] at read
      obtain ⟨⟨values, _⟩, -, last⟩ := bind_eq_ok.mp read
      cases last
      rfl
    | _ => cases read

/-- An enum is declared under the name of its schema, also where the request for the name is
answered with another one. -/
theorem declareEnum_agrees {literals : List Json} (given : literals ≠ []) (before : ResolveState) :
    scope.Agrees s (scope.declareEnum literals s.summary)
      (scope.resolveEnum literals s.isNullable scope.schema) before := by
  refine Agrees.bind (Guards.refl _) fun (values, null) after returned => ?_
  obtain ⟨read, -⟩ := returns_lift.mp returned
  cases values with
  | nil =>
    obtain rfl := null_of_enumLiterals given read
    simp only [Bool.or_true]
    exact Agrees.pure (.scalar _ _)
  | cons v vs =>
    refine Or.inr (Or.inr ⟨_, _, _, _, rfl, rfl, .enum _ ?_ ?_⟩)
    · exact EnumTable.get?_aliases_synthesize ..
    · exact EnumTable.get?_isSome_iff.mpr (EnumTable.declareOwned_mem ..)

/-- A node that says nothing about null is not nullable, and any other is what it says. -/
theorem isNullable_eq (s : Schema) : s.isNullable = s.declaredNullability.getD false := by
  unfold Schema.declaredNullability
  cases marked : s.isNullable with
  | true => rfl
  | false =>
    have unmarked : s.facets.nullable ≠ some true := by
      intro stated
      simp [Schema.isNullable, Facets.isNullable, stated] at marked
    rcases stated : s.facets.nullable with _ | _ | _
    · rfl
    · rfl
    · exact absurd stated unmarked

theorem any_agrees (before : ResolveState) :
    scope.Agrees s (scope.outcomeOfShape s .any) (scope.typeOfShape s scope.schema .any)
      before := by
  rw [outcomeOfShape, typeOfShape, isNullable_eq]
  cases stated : s.declaredNullability with
  | some nullable => exact Agrees.pure (.any stated)
  | none => exact Agrees.pure (.vacuous stated)

/-- The declaration of a schema agrees with the type of its node, in every state. -/
theorem declare_agrees_resolve (scope : Scope) (s : Schema) (before : ResolveState) :
    scope.Agrees s (scope.declare s) (scope.resolve s scope.schema) before := by
  rw [declare_eq, resolve_eq]
  refine Agrees.bind (Guards.refl _) fun type after _ => ?_
  cases found : s.shape type with
  | merged => exact Agrees.bind (flatten_guards s _) fun _ _ _ => Agrees.pure (.record _ _)
  | union => exact Agrees.bind (Guards.refl _) fun _ _ _ => Agrees.pure (.union _ _)
  | fields => exact Agrees.bind (Guards.refl _) fun _ _ _ => Agrees.pure (.record _ _)
  | reference pointer => exact inclusionRecord_agrees (Schema.shape_eq_reference found).2.2.1 _ _
  | emptyRecord => exact Agrees.pure (.record _ _)
  | array items =>
    cases items with
    | none => exact Agrees.pure (.array _ _)
    | some items => exact Agrees.bind (Guards.refl _) fun _ _ _ => Agrees.pure (.array _ _)
  | literals literals => exact declareEnum_agrees (Schema.shape_literals_ne_nil found) _
  | scalar => exact Agrees.pure (.scalar _ _)
  | any => exact any_agrees _

end SchemaTypes.Scope
