import SchemaTypes.Data.Entries
import SchemaTypes.Document.Pointer
import SchemaTypes.Json.Value

/-!
# Schema nodes

A node of the document that describes a type. Several parts of a node may be given at once; which
one decides is settled when the node is resolved.
-/
namespace SchemaTypes

/-- The parts of a schema node that hold no other node. -/
structure Facets where
  type : Option String := none
  format : Option String := none
  description : Option String := none
  required : List String := []
  literals : List Json := []
  reference : Option String := none
  nullable : Option Bool := none
  extensions : List (String × Json) := []
deriving Inhabited

/-- Marked nullable, in the current spelling or the older one. -/
def Facets.isNullable (f : Facets) : Bool :=
  f.nullable == some true || (Data.Entries.get? f.extensions "x-nullable").any Json.isTrue

/-- A schema node: its facets, and the nodes below it by the part that they stand in. -/
inductive Schema where
  | node (facets : Facets) (properties : Option (List (String × Schema))) (items : Option Schema)
      (allOf oneOf anyOf : List Schema)

namespace Schema

/-- The node that says nothing. -/
def empty : Schema := .node {} none none [] [] []

instance : Inhabited Schema := ⟨empty⟩

def facets : Schema → Facets
  | .node f .. => f

def properties : Schema → Option (List (String × Schema))
  | .node _ ps .. => ps

def items : Schema → Option Schema
  | .node _ _ i .. => i

def allOf : Schema → List Schema
  | .node _ _ _ ms _ _ => ms

def oneOf : Schema → List Schema
  | .node _ _ _ _ ms _ => ms

def anyOf : Schema → List Schema
  | .node _ _ _ _ _ ms => ms

def hasComposition (s : Schema) : Bool :=
  !s.allOf.isEmpty || !s.oneOf.isEmpty || !s.anyOf.isEmpty

/-- Properties are given, or the type is `object`. -/
def isObject (s : Schema) : Bool :=
  s.properties.isSome || s.facets.type == some "object"

def isNullable (s : Schema) : Bool :=
  s.facets.isNullable

/-- Nullable, or null is one of the literals. -/
def admitsNull (s : Schema) : Bool :=
  s.isNullable || s.facets.literals.any Json.isNull

/-- A reference without properties, with no type or the type `object`. -/
def isBareReference (s : Schema) : Bool :=
  s.facets.reference.isSome && s.properties.isNone &&
    (s.facets.type == none || s.facets.type == some "object")

/-- What the node says about null, if anything. -/
def declaredNullability (s : Schema) : Option Bool :=
  if s.isNullable then some true else s.facets.nullable

/-- The first line of the description, if there is anything on it. -/
def summary (s : Schema) : Option String :=
  s.facets.description.bind Text.firstLine

/-! ### References -/

mutual

/-- The pointers in a node and the nodes below it, in document order: the node's own one, then those
of properties, items, `allOf`, `oneOf` and `anyOf`. -/
def references : Schema → List String
  | .node f properties items allOf oneOf anyOf =>
    f.reference.toList ++
      (match properties with
        | some ps => propertyReferences ps
        | none => []) ++
      (match items with
        | some i => i.references
        | none => []) ++
      listReferences allOf ++ listReferences oneOf ++ listReferences anyOf
termination_by structural s => s

def propertyReferences : List (String × Schema) → List String
  | [] => []
  | (_, s) :: rest => s.references ++ propertyReferences rest
termination_by structural ps => ps

def listReferences : List Schema → List String
  | [] => []
  | s :: rest => s.references ++ listReferences rest
termination_by structural ss => ss

end

mutual

/-- Replaces every pointer in a node and the nodes below it. -/
def mapReferences (g : String → String) : Schema → Schema
  | .node f properties items allOf oneOf anyOf =>
    .node { f with reference := f.reference.map g }
      (match properties with
        | some ps => some (mapPropertyReferences g ps)
        | none => none)
      (match items with
        | some i => some (i.mapReferences g)
        | none => none)
      (mapListReferences g allOf) (mapListReferences g oneOf) (mapListReferences g anyOf)
termination_by structural s => s

def mapPropertyReferences (g : String → String) : List (String × Schema) → List (String × Schema)
  | [] => []
  | (key, s) :: rest => (key, s.mapReferences g) :: mapPropertyReferences g rest
termination_by structural ps => ps

def mapListReferences (g : String → String) : List Schema → List Schema
  | [] => []
  | s :: rest => s.mapReferences g :: mapListReferences g rest
termination_by structural ss => ss

end

/-! ### Written form -/

mutual

/-- The node as JSON: every known part, absent ones as null or as an empty list, then the
extensions. -/
def toJson : Schema → Json
  | .node f properties items allOf oneOf anyOf =>
    .object <|
      [("type", Json.option f.type),
       ("format", Json.option f.format),
       ("description", Json.option f.description),
       ("properties", match properties with
        | some ps => .object (propertiesToJson ps)
        | none => .null),
       ("required", Json.texts f.required),
       ("items", match items with
        | some i => i.toJson
        | none => .null),
       ("enum", .array f.literals),
       ("$ref", Json.option f.reference),
       ("nullable", match f.nullable with
        | some b => .bool b
        | none => .null),
       ("allOf", .array (listToJson allOf)),
       ("oneOf", .array (listToJson oneOf)),
       ("anyOf", .array (listToJson anyOf))] ++ f.extensions
termination_by structural s => s

def propertiesToJson : List (String × Schema) → List (String × Json)
  | [] => []
  | (key, s) :: rest => (key, s.toJson) :: propertiesToJson rest
termination_by structural ps => ps

def listToJson : List Schema → List Json
  | [] => []
  | s :: rest => s.toJson :: listToJson rest
termination_by structural ss => ss

end

end Schema
end SchemaTypes
