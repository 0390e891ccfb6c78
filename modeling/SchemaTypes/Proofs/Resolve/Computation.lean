import SchemaTypes.Resolve.Resolver

/-!
# Runs of a resolution

What a resolution comes to from a given state: its result, and the state that it leaves, which a
failed one leaves as well.
-/
namespace SchemaTypes

theorem bind_eq_ok {ε α β : Type} {x : Except ε α} {f : α → Except ε β} {b : β} :
    x >>= f = .ok b ↔ ∃ a, x = .ok a ∧ f a = .ok b := by
  cases x <;> simp [bind, Except.bind]

theorem bind_eq_error {ε α β : Type} {x : Except ε α} {f : α → Except ε β} {e : ε} :
    x >>= f = .error e ↔ x = .error e ∨ ∃ a, x = .ok a ∧ f a = .error e := by
  cases x <;> simp [bind, Except.bind]

theorem eq_ok_of_toOption {ε α : Type} {x : Except ε α} {a : α} (found : x.toOption = some a) :
    x = .ok a := by
  cases x with
  | error => cases found
  | ok => exact congrArg _ (Option.some.inj found)

theorem eq_ok_getD {ε α : Type} [Inhabited α] {x : Except ε α}
    (returned : x.toOption.isSome = true) : x = .ok (x.toOption.getD default) := by
  cases x with
  | error => cases returned
  | ok => rfl

end SchemaTypes

namespace SchemaTypes.Resolve

variable {α β : Type}

/-- The result of a computation from a state, and the state after it. -/
def runFrom (m : Resolve α) (before : ResolveState) : Except Error α × ResolveState :=
  m.run.run before

/-- From `before` the computation returns `a` and leaves `after`. -/
def Returns (m : Resolve α) (before : ResolveState) (a : α) (after : ResolveState) : Prop :=
  runFrom m before = (.ok a, after)

/-! ### Runs -/

@[simp] theorem runFrom_pure (a : α) (s : ResolveState) :
    runFrom (pure a) s = (.ok a, s) := rfl

@[simp] theorem runFrom_throw (e : Error) (s : ResolveState) :
    runFrom (throw e : Resolve α) s = (.error e, s) := rfl

@[simp] theorem runFrom_lift (x : Except Error α) (s : ResolveState) :
    runFrom (liftM x) s = (x, s) := rfl

@[simp] theorem runFrom_get (s : ResolveState) :
    runFrom get s = (.ok s, s) := rfl

@[simp] theorem runFrom_set (s t : ResolveState) :
    runFrom (set t) s = (.ok ⟨⟩, t) := rfl

@[simp] theorem runFrom_modify (f : ResolveState → ResolveState) (s : ResolveState) :
    runFrom (modify f) s = (.ok ⟨⟩, f s) := rfl

theorem runFrom_bind (m : Resolve α) (f : α → Resolve β) (s : ResolveState) :
    runFrom (m >>= f) s =
      match runFrom m s with
      | (.ok a, s) => runFrom (f a) s
      | (.error e, s) => (.error e, s) := by
  change (ExceptT.bindCont f (runFrom m s).1).run (runFrom m s).2 = _
  cases runFrom m s with
  | mk result after => cases result <;> rfl

/-- A sequence fails where one of its parts does. -/
theorem runFrom_bind_eq_error {m : Resolve α} {f : α → Resolve β} {s t : ResolveState} {e : Error} :
    runFrom (m >>= f) s = (.error e, t) ↔
      runFrom m s = (.error e, t) ∨ ∃ a u, Returns m s a u ∧ runFrom (f a) u = (.error e, t) := by
  simp only [Returns, runFrom_bind]
  cases runFrom m s with
  | mk result after => cases result <;> simp [and_assoc]

/-! ### Successful runs -/

@[simp] theorem returns_pure {a b : α} {s t : ResolveState} :
    Returns (pure a) s b t ↔ a = b ∧ s = t := by
  simp [Returns]

@[simp] theorem returns_throw {e : Error} {a : α} {s t : ResolveState} :
    ¬ Returns (throw e) s a t := by
  simp [Returns]

@[simp] theorem returns_lift {x : Except Error α} {a : α} {s t : ResolveState} :
    Returns (liftM x) s a t ↔ x = .ok a ∧ s = t := by
  simp [Returns]

theorem returns_bind {m : Resolve α} {f : α → Resolve β} {s t : ResolveState} {b : β} :
    Returns (m >>= f) s b t ↔ ∃ a u, Returns m s a u ∧ Returns (f a) u b t := by
  simp only [Returns, runFrom_bind]
  cases runFrom m s with
  | mk result after => cases result <;> simp [and_assoc]

end SchemaTypes.Resolve

/-! ### Successful resolutions of lists -/

namespace SchemaTypes.Scope

open Naming Resolve

variable {scope : Scope} {before after : ResolveState} {typeName : String}

theorem resolveFields_nil {required : List String} {ms : List Member} :
    Returns (scope.resolveFields [] required typeName) before ms after ↔
      ms = [] ∧ before = after := by
  rw [resolveFields, returns_pure, eq_comm]

theorem resolveFields_cons {key : String} {p : Schema} {rest : List (String × Schema)}
    {required : List String} {ms : List Member} :
    Returns (scope.resolveFields ((key, p) :: rest) required typeName) before ms after ↔
      ∃ t mid fields,
        Returns (scope.resolve p (propertyTypeName typeName (Text.trim key))) before t mid ∧
        Returns (scope.resolveFields rest required typeName) mid fields after ∧
        ms = .field (fieldName scope.reserved (Text.trim key)) (Text.trim key) t
          (required.any fun r => Text.trim r == Text.trim key) (scope.fieldDescription p) ::
            fields := by
  simp only [resolveFields, returns_bind, returns_pure]
  grind

theorem resolveAlternatives_nil {number : Nat} {types result : List TypeExpr} :
    Returns (scope.resolveAlternatives [] typeName number types) before result after ↔
      result = types ∧ before = after := by
  rw [resolveAlternatives, returns_pure, eq_comm]

theorem resolveAlternatives_cons {s : Schema} {rest : List Schema} {number : Nat}
    {types result : List TypeExpr} :
    Returns (scope.resolveAlternatives (s :: rest) typeName number types) before result after ↔
      ∃ t mid, Returns (scope.resolve s (typeName ++ "Variant" ++ toString number)) before t mid ∧
        Returns (scope.resolveAlternatives rest typeName (number + 1) (pushType types t)) mid
          result after := by
  rw [resolveAlternatives, returns_bind]

theorem mergeMembers_nil {declaring : Bool} {merged ms : List Member} :
    Returns (scope.mergeMembers declaring [] typeName merged) before ms after ↔
      ms = merged ∧ before = after := by
  rw [mergeMembers, returns_pure, eq_comm]

theorem mergeMembers_cons {declaring : Bool} {s : Schema} {rest : List Schema}
    {merged ms : List Member} :
    Returns (scope.mergeMembers declaring (s :: rest) typeName merged) before ms after ↔
      ∃ parts mid, Returns (scope.memberParts declaring s typeName) before parts mid ∧
        Returns (scope.mergeMembers declaring rest typeName (pushMembers merged parts)) mid
          ms after := by
  rw [mergeMembers, returns_bind]

/-- A flattened record has the members merged from `allOf` and then its own fields, if any. -/
theorem flatten_returns {declaring : Bool} {s : Schema} {ms : List Member} :
    Returns (scope.flatten declaring s typeName) before ms after ↔
      ∃ merged mid, Returns (scope.mergeMembers declaring s.allOf typeName []) before merged mid ∧
        ((s.properties = none ∧ ms = merged ∧ mid = after) ∨
          ∃ ps fields, s.properties = some ps ∧
            Returns (scope.resolveFields ps s.facets.required typeName) mid fields after ∧
            ms = pushMembers merged fields) := by
  simp only [flatten, returns_bind]
  refine exists_congr fun merged => exists_congr fun mid => and_congr_right fun _ => ?_
  cases s.properties with
  | none => simp [eq_comm]
  | some ps =>
    simp only [returns_bind, returns_pure]
    grind

theorem referenceTarget_returns {pointer target : String} :
    Returns (scope.referenceTarget pointer) before target after ↔
      scope.table.resolvePointer pointer = some target ∧
        after = { before with referenced := before.referenced.insert target } := by
  unfold referenceTarget
  cases scope.table.resolvePointer pointer with
  | none => simp
  | some name =>
    simp only [Returns, runFrom_bind, runFrom_modify, runFrom_pure, Prod.mk.injEq, Except.ok.injEq,
      Option.some.injEq]
    grind

end SchemaTypes.Scope
