import SchemaTypes.Document.Basic
import SchemaTypes.Json.Reader
import SchemaTypes.Source.Reading
import SchemaTypes.Yaml.Source

/-!
# Reading documents

Which parts of a document are required, which may be missing or null, and which may be blank. Parts
without a meaning for types are passed over, except in schema nodes, which keep them.
-/
namespace SchemaTypes

open Data Source

namespace Schema

/-- The parts of a schema node that have a meaning here. -/
def partNames : List String :=
  ["type", "format", "description", "properties", "required", "items", "enum", "$ref", "nullable",
   "allOf", "oneOf", "anyOf"]

/-- A schema node. A part that is given twice is refused; an unknown one is kept as a literal. The
nodes in a list or a map are one level below it. -/
def reader : Reader Schema
  | 0, source => do
    let _ ← entriesOf 0 source
    pure Schema.empty
  | levels + 1, source => do
    let entries ← keyedEntriesOf (levels + 1) source
    let known := entries.filter fun e => partNames.contains e.1
    let other := entries.filter fun e => !partNames.contains e.1
    if ¬(known.map Prod.fst).Nodup then refuse
    else do
      let named : Reader (List (String × Schema)) := fun inner source => do
        let entries ← keyedEntriesOf inner source
        match levels with
        | 0 => pure []
        | below + 1 => entries.mapM fun (key, value) => do pure (key, ← reader below value)
      let several : Reader (List Schema) := fun inner source => do
        let nodes ← itemsOf inner source
        match levels with
        | 0 => pure []
        | below + 1 => nodes.mapM fun value => reader below value
      let type ← orElse known "type" (optional text) none levels
      let format ← orElse known "format" (optional text) none levels
      let description ← orElse known "description" (optional text) none levels
      let properties ← orElse known "properties" (optional named) none levels
      let required ← orElse known "required" (listOf text) [] levels
      let items ← orElse known "items" (optional fun _ source => reader levels source) none levels
      let literals ← orElse known "enum" (listOf (literal false)) [] levels
      let reference ← orElse known "$ref" (optional text) none levels
      let nullable ← orElse known "nullable" (optional flag) none levels
      let allOf ← orElse known "allOf" several [] levels
      let oneOf ← orElse known "oneOf" several [] levels
      let anyOf ← orElse known "anyOf" several [] levels
      let extensions ← other.mapM fun (key, value) => do pure (key, ← literal true levels value)
      pure (.node ⟨type, format, description, required, literals, reference, nullable,
        Entries.ofList extensions⟩ (properties.map Entries.ofList) items allOf oneOf anyOf)
termination_by structural levels => levels

end Schema

namespace Document

def Info.reader : Reader Info := fun levels node => do
  let fields ← fieldsOf ["title", "version", "description"] levels node
  let inner := levels - 1
  pure ⟨← required fields "title" text inner, ← required fields "version" text inner,
    ← orElse fields "description" (optional text) none inner⟩

def Parameter.reader : Reader Parameter := fun levels node => do
  let fields ← fieldsOf ["name", "in", "required", "schema"] levels node
  let inner := levels - 1
  pure ⟨← Source.required fields "name" text inner, ← Source.required fields "in" text inner,
    ← orElse fields "required" flag false inner,
    ← orElse fields "schema" (optional Schema.reader) none inner⟩

def Media.reader : Reader Media := fun levels node => do
  let fields ← fieldsOf ["schema"] levels node
  pure ⟨← orElse fields "schema" (optional Schema.reader) none (levels - 1)⟩

def RequestBody.reader : Reader RequestBody := fun levels node => do
  let fields ← fieldsOf ["content", "required"] levels node
  let inner := levels - 1
  pure ⟨← orElse fields "content" (mapOf Media.reader) [] inner,
    ← orElse fields "required" flag false inner⟩

def Response.reader : Reader Response := fun levels node => do
  let fields ← fieldsOf ["description", "content"] levels node
  let inner := levels - 1
  pure ⟨← orElse fields "description" (optional text) none inner,
    ← orElse fields "content" (mapOf Media.reader) [] inner⟩

def Operation.reader : Reader Operation := fun levels node => do
  let fields ← fieldsOf ["operationId", "parameters", "requestBody", "responses"] levels node
  let inner := levels - 1
  pure ⟨← orElse fields "operationId" (optional text) none inner,
    ← orElse fields "parameters" (listOf Parameter.reader) [] inner,
    ← orElse fields "requestBody" (optional RequestBody.reader) none inner,
    ← orElse fields "responses" (mapOf Response.reader) [] inner⟩

def PathItem.reader : Reader PathItem := fun levels node => do
  let fields ← fieldsOf ["get", "post", "put", "patch", "delete", "parameters"] levels node
  let inner := levels - 1
  let operation (name : String) : Read (Option Operation) :=
    orElse fields name (optional Operation.reader) none inner
  pure ⟨← operation "get", ← operation "post", ← operation "put", ← operation "patch",
    ← operation "delete", ← orElse fields "parameters" (listOf Parameter.reader) [] inner⟩

/-- The component schemas under their place in the document. -/
def componentsReader : Reader (Entries Schema) := fun levels node => do
  let fields ← fieldsOf ["schemas"] levels node
  orElse fields "schemas" (mapOf Schema.reader) [] (levels - 1)

def reader : Reader Document := fun levels node => do
  let fields ← fieldsOf ["openapi", "info", "paths", "components"] levels node
  let inner := levels - 1
  pure ⟨← required fields "openapi" text inner, ← required fields "info" Info.reader inner,
    ← orElse fields "paths" (mapOf PathItem.reader) [] inner,
    ← orElse fields "components" (optional componentsReader) none inner⟩

/-- The document in a JSON text. -/
def ofJson? (s : String) : Option Document := do
  (Root.ofTree (← Json.read s)).read reader

/-- The document in a YAML text. -/
def ofYaml? (s : String) : Option Document := do
  (← Yaml.read s).read reader

end Document

/-- A schema node in a JSON text. -/
def Schema.ofJson? (s : String) : Option Schema := do
  (Source.Root.ofTree (← Json.read s)).read Schema.reader

/-- Named schema nodes in a JSON text. -/
def Schema.entriesOfJson? (s : String) : Option (Entries Schema) := do
  (Source.Root.ofTree (← Json.read s)).read (mapOf Schema.reader)

end SchemaTypes
