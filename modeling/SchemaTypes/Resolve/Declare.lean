import SchemaTypes.Resolve.Resolver

/-!
# Declaring schemas

The declaration of a component schema. The same parts decide as for an inline type, but a reference
becomes a record that includes its target, and a string enum is declared under the schema's name.
-/
namespace SchemaTypes

/-- What declaring a schema comes to: a declaration, an enum that is in the enum table, or nothing
but a description, which becomes a declaration only if something refers to the schema. -/
inductive Outcome where
  | declared (declaration : Declaration)
  | enum
  | vacuous (description : Option String)
deriving Inhabited

namespace Scope

/-- The record that includes what a pointer designates. -/
def inclusionRecord (scope : Scope) (pointer : String) (description : Option String) :
    Resolve Outcome := do
  let target ← scope.referenceTarget pointer
  scope.checkInclusion target
  pure (.declared (.record scope.schema [.inclusion target] description))

/-- The enum for the literals of a schema; without a text among them, a nullable string. -/
def declareEnum (scope : Scope) (literals : List Json) (description : Option String) :
    Resolve Outcome := do
  let (values, _) ← scope.enumLiterals literals
  match values with
  | [] => pure (.declared (.scalar scope.schema .string true description))
  | _ => do
    modify fun s =>
      { s with enums := s.enums.declareOwned scope.schema values description }
    pure .enum

/-- Declares a schema under the name of the scope. -/
def declare (scope : Scope) (s : Schema) : Resolve Outcome := do
  let name := scope.schema
  let type ← scope.nodeType s.facets
  let description := s.summary
  match s.allOf.isEmpty, s.oneOf.isEmpty, s.anyOf.isEmpty with
  | false, _, _ => do
    pure (.declared (.record name (← scope.flatten true s name) description))
  | true, false, _ => do
    pure (.declared (.union name (← scope.resolveAlternatives s.oneOf name 1 []) description))
  | true, true, false => do
    pure (.declared (.union name (← scope.resolveAlternatives s.anyOf name 1 []) description))
  | true, true, true =>
    match s.properties with
    | some ps => do
      let members ← scope.resolveFields ps s.facets.required name
      pure (.declared (.record name members description))
    | none =>
      match type with
      | some .object =>
        match s.facets.reference with
        | some pointer => scope.inclusionRecord pointer description
        | none => pure (.declared (.record name [] description))
      | some .array =>
        match s.items with
        | some items => do
          let element ← scope.resolve items (name ++ "Item")
          pure (.declared (.array name element s.isNullable description))
        | none => pure (.declared (.array name (.any false) s.isNullable description))
      | some (.scalar .string) =>
        match s.facets.literals with
        | [] => pure (.declared (.scalar name .string s.isNullable description))
        | literals => scope.declareEnum literals description
      | some (.scalar kind) => pure (.declared (.scalar name kind s.isNullable description))
      | none =>
        match s.facets.reference, s.declaredNullability with
        | some pointer, _ => scope.inclusionRecord pointer description
        | none, some nullable => pure (.declared (.any name nullable description))
        | none, none => pure (.vacuous description)

end Scope
end SchemaTypes
