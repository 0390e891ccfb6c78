import SchemaTypes.Resolve.EnumTable
import SchemaTypes.Resolve.Inclusion

/-!
# Resolution

A schema node becomes a type expression. The first of these decides: `allOf`; `oneOf` or `anyOf`;
properties or the type `object`; the type `array`; a scalar type; a reference; otherwise any value.
Resolution declares enums and records the names that it refers to, also where it fails later on.
-/
namespace SchemaTypes

open Data Naming

/-- What the resolution of one schema looks up. -/
structure Scope where
  table : SchemaTable
  reserved : ReservedWords
  /-- The schema that errors are reported for. -/
  schema : String

/-- What the resolutions of a pass share and change. -/
structure ResolveState where
  enums : EnumTable := {}
  taken : NameTable := {}
  referenced : NameSet := .empty
deriving Inhabited

/-- A failed resolution keeps what it did before. -/
abbrev Resolve := ExceptT Error (StateM ResolveState)

/-- What the type of a node names. -/
inductive NodeType where
  | scalar (kind : ScalarKind)
  | object
  | array
deriving Repr, DecidableEq, Inhabited

/-- The meaning of a type, where the format tells two kinds of numbers apart. -/
def NodeType.ofWord? (word : String) (format : Option String) : Option NodeType :=
  match word with
  | "string" => some (.scalar .string)
  | "integer" => some (.scalar .int)
  | "number" =>
    some (.scalar (if format = some "float" ∨ format = some "double" then .float else .decimal))
  | "boolean" => some (.scalar .boolean)
  | "object" => some .object
  | "array" => some .array
  | _ => none

namespace Scope

/-- The type that a node names, if it names one; a word without a meaning is an error. -/
def nodeType (scope : Scope) (f : Facets) : Except Error (Option NodeType) :=
  match f.type with
  | none => .ok none
  | some word =>
    match NodeType.ofWord? word f.format with
    | some type => .ok (some type)
    | none => .error (.unsupportedType scope.schema word)

/-- The texts among the literals of a string enum, and whether null is one. -/
def enumLiterals (scope : Scope) : List Json → Except Error (List String × Bool)
  | [] => .ok ([], false)
  | .text value :: rest => do
    let (values, null) ← scope.enumLiterals rest
    pure (value :: values, null)
  | .null :: rest => do
    let (values, _) ← scope.enumLiterals rest
    pure (values, true)
  | other :: _ => .error (.foreignLiteral scope.schema other)

/-- The name that a pointer designates, which becomes a referenced name. -/
def referenceTarget (scope : Scope) (pointer : String) : Resolve String :=
  match scope.table.resolvePointer pointer with
  | none => throw (.unresolvableReference scope.schema pointer)
  | some name => do
    modify fun s => { s with referenced := s.referenced.insert name }
    pure name

/-- A reference admits null where it says so itself or where its target does. -/
def resolveReference (scope : Scope) (pointer : String) (nullable : Bool) : Resolve TypeExpr := do
  let name ← scope.referenceTarget pointer
  pure (.reference name (nullable || (scope.table.get? name).any Schema.admitsNull))

/-- The enum for the literals of a node; without a text among them, a string. -/
def resolveEnum (scope : Scope) (literals : List Json) (nullable : Bool) (typeName : String) :
    Resolve TypeExpr := do
  let (values, null) ← scope.enumLiterals literals
  match values with
  | [] => pure (.scalar .string (nullable || null))
  | _ => do
    let s ← get
    let (name, enums, taken) := s.enums.synthesize s.taken typeName values
    set { s with enums, taken, referenced := s.referenced.insert name }
    pure (.reference name (nullable || null))

/-- The summary of a property, or else of the schema that it refers to. -/
def fieldDescription (scope : Scope) (property : Schema) : Option String :=
  property.summary <|>
    (((property.facets.reference.bind scope.table.resolvePointer).bind scope.table.get?).bind
      Schema.summary)

/-- Fails where including `target` leads back to the schema itself. -/
def checkInclusion (scope : Scope) (target : String) : Except Error Unit :=
  match scope.table.inclusionPath? target scope.schema with
  | some path => .error (.cyclicInclusion (scope.schema :: path))
  | none => .ok ()

end Scope

/-- Is a member with the same name there? Fields and inclusions do not share names. -/
def Member.repeats (members : List Member) : Member → Bool
  | .field name .. => members.any fun m => m.fieldName == some name
  | .inclusion name => members.contains (.inclusion name)

/-- Appends a member, unless it repeats one. -/
def pushMember (members : List Member) (m : Member) : List Member :=
  if m.repeats members then members else members ++ [m]

/-- Appends members in order, each unless it repeats one. -/
def pushMembers (members new : List Member) : List Member :=
  new.foldl pushMember members

/-- Appends a type, unless it is there. -/
def pushType (types : List TypeExpr) (t : TypeExpr) : List TypeExpr :=
  if t ∈ types then types else types ++ [t]

/-- The name for what is declared inside a property. -/
def propertyTypeName (enclosing key : String) : String :=
  normalize enclosing true ++ normalize key true

namespace Scope

mutual

/-- The type of a node. `typeName` is the name for an enum that the node declares, and the stem of
the names for those below it. -/
def resolve (scope : Scope) : Schema → (typeName : String) → Resolve TypeExpr
  | .node f properties items allOf oneOf anyOf, typeName => do
    let type ← scope.nodeType f
    let nullable := f.isNullable
    match allOf.isEmpty, oneOf.isEmpty, anyOf.isEmpty with
    | false, _, _ => do
      let members ← scope.mergeMembers false allOf typeName []
      match properties with
      | some ps => do
        pure (.record (pushMembers members (← scope.resolveFields ps f.required typeName)) nullable)
      | none => pure (.record members nullable)
    | true, false, _ => do
      pure (.union (← scope.resolveAlternatives oneOf typeName 1 []) nullable)
    | true, true, false => do
      pure (.union (← scope.resolveAlternatives anyOf typeName 1 []) nullable)
    | true, true, true =>
      match properties with
      | some ps => do pure (.record (← scope.resolveFields ps f.required typeName) nullable)
      | none =>
        match type with
        | some .object =>
          match f.reference with
          | some pointer => scope.resolveReference pointer nullable
          | none => pure (.record [] nullable)
        | some .array =>
          match items with
          | some element => do
            pure (.array (← scope.resolve element (typeName ++ "Item")) nullable)
          | none => pure (.array (.any false) nullable)
        | some (.scalar .string) =>
          match f.literals with
          | [] => pure (.scalar .string nullable)
          | literals => scope.resolveEnum literals nullable typeName
        | some (.scalar kind) => pure (.scalar kind nullable)
        | none =>
          match f.reference with
          | some pointer => scope.resolveReference pointer nullable
          | none => pure (.any nullable)
termination_by structural s => s

/-- The fields for properties, in document order. -/
def resolveFields (scope : Scope) :
    List (String × Schema) → (required : List String) → (typeName : String) → Resolve (List Member)
  | [], _, _ => pure []
  | (key, property) :: rest, required, typeName => do
    let key := Text.trim key
    let type ← scope.resolve property (propertyTypeName typeName key)
    let field := Member.field (fieldName scope.reserved key) key type
      (required.any fun r => Text.trim r == key) (scope.fieldDescription property)
    let fields ← scope.resolveFields rest required typeName
    pure (field :: fields)
termination_by structural ps => ps

/-- The alternatives of a union, numbered as they are listed, without repeats. -/
def resolveAlternatives (scope : Scope) :
    List Schema → (typeName : String) → (number : Nat) → List TypeExpr → Resolve (List TypeExpr)
  | [], _, _, types => pure types
  | s :: rest, typeName, number, types => do
    let type ← scope.resolve s (typeName ++ "Variant" ++ toString number)
    scope.resolveAlternatives rest typeName (number + 1) (pushType types type)
termination_by structural ss => ss

/-- What one member of `allOf` contributes: a nested `allOf` its merged members, a reference an
inclusion, an object its fields, a node without a shape nothing. With `declaring`, an inclusion must
not lead back to the schema. -/
def memberParts (scope : Scope) (declaring : Bool) : Schema → (typeName : String) →
    Resolve (List Member)
  | .node f properties _ allOf oneOf anyOf, typeName => do
    let type ← scope.nodeType f
    match allOf.isEmpty, oneOf.isEmpty, anyOf.isEmpty with
    | false, _, _ => do
      let members ← scope.mergeMembers declaring allOf typeName []
      match properties with
      | some ps => do pure (pushMembers members (← scope.resolveFields ps f.required typeName))
      | none => pure members
    | true, false, _ => throw (.unmergeable scope.schema "oneOf")
    | true, true, false => throw (.unmergeable scope.schema "anyOf")
    | true, true, true =>
      match properties, f.reference with
      | some ps, _ => scope.resolveFields ps f.required typeName
      | none, some pointer => do
        let target ← scope.referenceTarget pointer
        if declaring then scope.checkInclusion target
        pure [.inclusion target]
      | none, none =>
        match type, f.type with
        | some .object, _ => pure []
        | some _, some word => throw (.unmergeable scope.schema word)
        | _, _ => pure []
termination_by structural s => s

/-- Merges the members of `allOf` in order; of repeated names the first counts. -/
def mergeMembers (scope : Scope) (declaring : Bool) :
    List Schema → (typeName : String) → List Member → Resolve (List Member)
  | [], _, merged => pure merged
  | s :: rest, typeName, merged => do
    let parts ← scope.memberParts declaring s typeName
    scope.mergeMembers declaring rest typeName (pushMembers merged parts)
termination_by structural ss => ss

end

/-- The members of a record with `allOf`: the merged ones, then the node's own fields. -/
def flatten (scope : Scope) (declaring : Bool) (s : Schema) (typeName : String) :
    Resolve (List Member) := do
  let members ← scope.mergeMembers declaring s.allOf typeName []
  match s.properties with
  | some ps => do
    pure (pushMembers members (← scope.resolveFields ps s.facets.required typeName))
  | none => pure members

end Scope
end SchemaTypes
