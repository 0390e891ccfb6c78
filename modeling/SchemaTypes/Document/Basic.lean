import SchemaTypes.Document.Schema

/-!
# Documents

The parts of an API description that schemas occur in: the components, and the operations with their
parameters, bodies and responses.
-/
namespace SchemaTypes

open Data

namespace Document

structure Info where
  title : String
  version : String
  description : Option String
deriving Inhabited

structure Parameter where
  name : String
  location : String
  required : Bool
  schema : Option Schema
deriving Inhabited

structure Media where
  schema : Option Schema
deriving Inhabited

structure RequestBody where
  content : Entries Media
  required : Bool
deriving Inhabited

structure Response where
  description : Option String
  content : Entries Media
deriving Inhabited

structure Operation where
  id : Option String
  parameters : List Parameter
  requestBody : Option RequestBody
  responses : Entries Response
deriving Inhabited

structure PathItem where
  get : Option Operation
  post : Option Operation
  put : Option Operation
  patch : Option Operation
  delete : Option Operation
  parameters : List Parameter
deriving Inhabited

end Document

/-- An API description. Components may be left out, which is not the same as having none. -/
structure Document where
  version : String
  info : Document.Info
  paths : Entries Document.PathItem
  components : Option (Entries Schema)
deriving Inhabited

namespace Document

/-- The operations of a path: get, post, put, patch, delete. -/
def PathItem.operations (p : PathItem) : List Operation :=
  p.get.toList ++ p.post.toList ++ p.put.toList ++ p.patch.toList ++ p.delete.toList

def contentSchemas (content : Entries Media) : List Schema :=
  content.filterMap fun e => e.2.schema

/-- The schemas of an operation: parameters, request body, responses. -/
def Operation.schemas (o : Operation) : List Schema :=
  o.parameters.filterMap Parameter.schema ++
    (match o.requestBody with
      | some body => contentSchemas body.content
      | none => []) ++
    o.responses.flatMap fun e => contentSchemas e.2.content

/-- The schemas of a path: its parameters, then its operations. -/
def PathItem.schemas (p : PathItem) : List Schema :=
  p.parameters.filterMap Parameter.schema ++ p.operations.flatMap Operation.schemas

/-- The component schemas, in document order. -/
def schemas (d : Document) : Entries Schema :=
  d.components.getD []

/-- Every schema that stands in a path, in document order. -/
def operationSchemas (d : Document) : List Schema :=
  d.paths.flatMap fun e => e.2.schemas

/-- The schema keys that operations refer to, each once, in the order of the first reference. -/
def operationReferences (d : Document) : List String :=
  ((d.operationSchemas.flatMap Schema.references).filterMap Pointer.target).foldl
    (fun seen key => if key ∈ seen then seen else seen ++ [key]) []

/-- The component schema that a pointer names by its key. -/
def schemaAt (d : Document) (pointer : String) : Option Schema :=
  (Pointer.target pointer).bind fun key => Entries.get? d.schemas key

/-! ### Written form -/

def optionJson {α : Type} (f : α → Json) : Option α → Json
  | some x => f x
  | none => .null

def entriesJson {α : Type} (f : α → Json) (es : Entries α) : Json :=
  .object (es.map fun e => (e.1, f e.2))

def Info.toJson (i : Info) : Json :=
  .object [("title", .text i.title), ("version", .text i.version),
    ("description", Json.option i.description)]

def Parameter.toJson (p : Parameter) : Json :=
  .object [("name", .text p.name), ("in", .text p.location), ("required", .bool p.required),
    ("schema", optionJson Schema.toJson p.schema)]

def Media.toJson (m : Media) : Json :=
  .object [("schema", optionJson Schema.toJson m.schema)]

def RequestBody.toJson (b : RequestBody) : Json :=
  .object [("content", entriesJson Media.toJson b.content), ("required", .bool b.required)]

def Response.toJson (r : Response) : Json :=
  .object [("description", Json.option r.description),
    ("content", entriesJson Media.toJson r.content)]

def Operation.toJson (o : Operation) : Json :=
  .object [("operationId", Json.option o.id),
    ("parameters", .array (o.parameters.map Parameter.toJson)),
    ("requestBody", optionJson RequestBody.toJson o.requestBody),
    ("responses", entriesJson Response.toJson o.responses)]

def PathItem.toJson (p : PathItem) : Json :=
  .object [("get", optionJson Operation.toJson p.get),
    ("post", optionJson Operation.toJson p.post),
    ("put", optionJson Operation.toJson p.put),
    ("patch", optionJson Operation.toJson p.patch),
    ("delete", optionJson Operation.toJson p.delete),
    ("parameters", .array (p.parameters.map Parameter.toJson))]

/-- The document as JSON, with every known part. -/
def toJson (d : Document) : Json :=
  .object [("openapi", .text d.version), ("info", d.info.toJson),
    ("paths", entriesJson PathItem.toJson d.paths),
    ("components", optionJson
      (fun schemas => .object [("schemas", .object (Schema.propertiesToJson schemas))])
      d.components)]

end Document
end SchemaTypes
