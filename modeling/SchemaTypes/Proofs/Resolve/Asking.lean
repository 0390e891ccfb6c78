import SchemaTypes.Proofs.Resolve.Computation
import SchemaTypes.Proofs.Resolve.Inquiry

/-!
# Resolutions that ask

Resolution once more, as a computation that asks for a target wherever the resolver looks one up. It
reads the schemas of a table by their names only. So what it asks for is what the resolver looks up.
-/
namespace SchemaTypes

open Naming Resolve

/-- A resolution that asks what pointers designate. -/
abbrev AskingResolve := ExceptT Error (StateT ResolveState Inquiry)

namespace AskingResolve

variable {α β : Type}

/-- A resolution that asks for nothing. -/
def quiet (m : Resolve α) : AskingResolve α :=
  ExceptT.mk fun before => pure (runFrom m before)

/-- What the resolution does from a state, as far as it can without answers. -/
def inquiryFrom (m : AskingResolve α) (before : ResolveState) :
    Inquiry (Except Error α × ResolveState) :=
  m.run.run before

/-- The pointers that the resolution asks for from a state under the answers, in order. -/
def lookups (answer : String → Option String) (m : AskingResolve α) (before : ResolveState) :
    List String :=
  (m.inquiryFrom before).asked answer

/-- What the resolution comes to from a state under the answers, and the state after it. -/
def answeredFrom (answer : String → Option String) (m : AskingResolve α) (before : ResolveState) :
    Except Error α × ResolveState :=
  (m.inquiryFrom before).result answer

theorem inquiryFrom_ask (q : Inquiry β) (f : β → AskingResolve α) (before : ResolveState) :
    (liftM q >>= f : AskingResolve α).inquiryFrom before =
      q >>= fun b => (f b).inquiryFrom before := by
  induction q with
  | done b => rfl
  | ask pointer next ih => exact congrArg (Inquiry.ask pointer) (funext ih)

variable {answer : String → Option String} {asks : String → Prop} {m : AskingResolve α}
  {n : Resolve α}

/-- Under the answers `m` does what `n` does from every state, and all that it asks for is of one
kind. -/
def Follows (answer : String → Option String) (asks : String → Prop) (m : AskingResolve α)
    (n : Resolve α) : Prop :=
  ∀ before, (m.inquiryFrom before).Finds answer asks (runFrom n before)

namespace Follows

theorem pure (a : α) : Follows answer asks (Pure.pure a) (Pure.pure a) :=
  fun before => .pure (Except.ok a, before)

theorem throw (e : Error) :
    Follows answer asks (MonadExcept.throw e : AskingResolve α) (MonadExcept.throw e) :=
  fun before => .pure (Except.error e, before)

theorem lift (x : Except Error α) : Follows answer asks (liftM x) (liftM x) :=
  fun before => .pure (x, before)

theorem quiet (n : Resolve α) : Follows answer asks (AskingResolve.quiet n) n :=
  fun before => .pure (runFrom n before)

theorem mono {other : String → Prop} (follows : Follows answer asks m n)
    (weaker : ∀ pointer, asks pointer → other pointer) : Follows answer other m n :=
  fun before => (follows before).mono weaker

/-- The rest may rely on what the first part returns. -/
theorem bind_returned {f : α → AskingResolve β} {g : α → Resolve β}
    (first : Follows answer asks m n)
    (rest : ∀ before a mid, Returns n before a mid → Follows answer asks (f a) (g a)) :
    Follows answer asks (m >>= f) (n >>= g) := by
  intro before
  rw [runFrom_bind]
  refine (first before).bind ?_
  cases run : runFrom n before with
  | mk outcome mid =>
    cases outcome with
    | error e => exact .pure (Except.error e, mid)
    | ok a => exact rest before a mid run mid

theorem bind {f : α → AskingResolve β} {g : α → Resolve β} (first : Follows answer asks m n)
    (rest : ∀ a, Follows answer asks (f a) (g a)) : Follows answer asks (m >>= f) (n >>= g) :=
  first.bind_returned fun _ a _ _ => rest a

/-- The rest goes on with what was asked for. -/
theorem ask {q : Inquiry β} {b : β} {f : β → AskingResolve α} (found : q.Finds answer asks b)
    (rest : Follows answer asks (f b) n) : Follows answer asks (liftM q >>= f) n := by
  intro before
  rw [inquiryFrom_ask]
  exact found.bind (rest before)

end Follows

end AskingResolve

namespace Scope

open AskingResolve

/-- The name that a pointer designates, which becomes a referenced name. -/
def askReferenceTarget (scope : Scope) (pointer : String) : AskingResolve String := do
  match ← Inquiry.target pointer with
  | none => throw (.unresolvableReference scope.schema pointer)
  | some name => do
    modify fun s => { s with referenced := s.referenced.insert name }
    pure name

/-- A reference to what a pointer designates. -/
def askReference (scope : Scope) (pointer : String) (nullable : Bool) :
    AskingResolve TypeExpr := do
  let name ← scope.askReferenceTarget pointer
  pure (.reference name (nullable || (scope.table.get? name).any Schema.admitsNull))

/-- The description of a field. The target of a property is asked for only if the property has no
summary. -/
def askDescription (scope : Scope) (property : Schema) : Inquiry (Option String) :=
  match property.summary with
  | some summary => pure (some summary)
  | none => do
    let target ← Inquiry.targetOf property.facets.reference
    pure ((target.bind scope.table.get?).bind Schema.summary)

/-- Fails where including `target` leads back to the schema itself. -/
def askInclusion (scope : Scope) (target : String) : AskingResolve Unit := do
  match ← scope.table.askInclusionPath? target scope.schema with
  | some path => throw (.cyclicInclusion (scope.schema :: path))
  | none => pure ()

mutual

/-- The type of a node. -/
def askType (scope : Scope) : Schema → (typeName : String) → AskingResolve TypeExpr
  | .node f properties items allOf oneOf anyOf, typeName => do
    let type ← scope.nodeType f
    let nullable := f.isNullable
    match allOf.isEmpty, oneOf.isEmpty, anyOf.isEmpty with
    | false, _, _ => do
      let members ← scope.askMembers false allOf typeName []
      match properties with
      | some ps => do
        pure (.record (pushMembers members (← scope.askFields ps f.required typeName)) nullable)
      | none => pure (.record members nullable)
    | true, false, _ => do
      pure (.union (← scope.askAlternatives oneOf typeName 1 []) nullable)
    | true, true, false => do
      pure (.union (← scope.askAlternatives anyOf typeName 1 []) nullable)
    | true, true, true =>
      match properties with
      | some ps => do pure (.record (← scope.askFields ps f.required typeName) nullable)
      | none =>
        match type with
        | some .object =>
          match f.reference with
          | some pointer => scope.askReference pointer nullable
          | none => pure (.record [] nullable)
        | some .array =>
          match items with
          | some element => do
            pure (.array (← scope.askType element (typeName ++ "Item")) nullable)
          | none => pure (.array (.any false) nullable)
        | some (.scalar .string) =>
          match f.literals with
          | [] => pure (.scalar .string nullable)
          | literals => quiet (scope.resolveEnum literals nullable typeName)
        | some (.scalar kind) => pure (.scalar kind nullable)
        | none =>
          match f.reference with
          | some pointer => scope.askReference pointer nullable
          | none => pure (.any nullable)
termination_by structural s => s

/-- The fields for properties. -/
def askFields (scope : Scope) :
    List (String × Schema) → (required : List String) → (typeName : String) →
      AskingResolve (List Member)
  | [], _, _ => pure []
  | (key, property) :: rest, required, typeName => do
    let key := Text.trim key
    let type ← scope.askType property (propertyTypeName typeName key)
    let description ← scope.askDescription property
    let field := Member.field (fieldName scope.reserved key) key type
      (required.any fun r => Text.trim r == key) description
    let fields ← scope.askFields rest required typeName
    pure (field :: fields)
termination_by structural ps => ps

/-- The alternatives of a union. -/
def askAlternatives (scope : Scope) :
    List Schema → (typeName : String) → (number : Nat) → List TypeExpr →
      AskingResolve (List TypeExpr)
  | [], _, _, types => pure types
  | s :: rest, typeName, number, types => do
    let type ← scope.askType s (typeName ++ "Variant" ++ toString number)
    scope.askAlternatives rest typeName (number + 1) (pushType types type)
termination_by structural ss => ss

/-- What one member of `allOf` contributes. -/
def askParts (scope : Scope) (declaring : Bool) : Schema → (typeName : String) →
    AskingResolve (List Member)
  | .node f properties _ allOf oneOf anyOf, typeName => do
    let type ← scope.nodeType f
    match allOf.isEmpty, oneOf.isEmpty, anyOf.isEmpty with
    | false, _, _ => do
      let members ← scope.askMembers declaring allOf typeName []
      match properties with
      | some ps => do pure (pushMembers members (← scope.askFields ps f.required typeName))
      | none => pure members
    | true, false, _ => throw (.unmergeable scope.schema "oneOf")
    | true, true, false => throw (.unmergeable scope.schema "anyOf")
    | true, true, true =>
      match properties, f.reference with
      | some ps, _ => scope.askFields ps f.required typeName
      | none, some pointer => do
        let target ← scope.askReferenceTarget pointer
        if declaring then scope.askInclusion target
        pure [.inclusion target]
      | none, none =>
        match type, f.type with
        | some .object, _ => pure []
        | some _, some word => throw (.unmergeable scope.schema word)
        | _, _ => pure []
termination_by structural s => s

/-- The merged members of `allOf`. -/
def askMembers (scope : Scope) (declaring : Bool) :
    List Schema → (typeName : String) → List Member → AskingResolve (List Member)
  | [], _, merged => pure merged
  | s :: rest, typeName, merged => do
    let parts ← scope.askParts declaring s typeName
    scope.askMembers declaring rest typeName (pushMembers merged parts)
termination_by structural ss => ss

end

/-- The members of a record with `allOf`: the merged ones, then the node's own fields. -/
def askFlatten (scope : Scope) (declaring : Bool) (s : Schema) (typeName : String) :
    AskingResolve (List Member) := do
  let members ← scope.askMembers declaring s.allOf typeName []
  match s.properties with
  | some ps => do
    pure (pushMembers members (← scope.askFields ps s.facets.required typeName))
  | none => pure members

end Scope
end SchemaTypes
