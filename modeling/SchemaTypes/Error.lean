import SchemaTypes.Json.Value

/-!
# Errors

What can go wrong between reading a document and writing the types, and the message for each.
-/
namespace SchemaTypes

/-- The reason for which there is no result. -/
inductive Error where
  /-- The text is no JSON document. -/
  | jsonDocument
  /-- The text is no YAML document. -/
  | yamlDocument
  | unreadableDocument (path : String)
  /-- The text holds no settings. -/
  | settingsText
  /-- A version of the settings that is not known, and the file it stands in. -/
  | settingsVersion (version : Nat) (path : Option String)
  | unreadableSettings (path : String)
  /-- The JSON text is not what it should be. -/
  | jsonText
  | unresolvableReference (schema pointer : String)
  | unsupportedType (schema type : String)
  /-- Something of this kind stands inside `allOf` but cannot be merged. -/
  | unmergeable (schema kind : String)
  /-- A schema that is named but not there. -/
  | missingSchema (schema : String)
  /-- No identifier can be made of the name. -/
  | namelessSchema (schema : String)
  /-- A literal of a string enum that is neither a text nor null. -/
  | foreignLiteral (schema : String) (literal : Json)
  | cyclicInclusion (chain : List String)
  | outputDirectory
  | outputFile (name : String)
deriving Inhabited

namespace Error

def unsupported (schema type : String) : String :=
  "Unsupported schema type `" ++ type ++ "` in schema `" ++ schema ++ "`"

def malformed (schema reason : String) : String :=
  "Malformed document at schema `" ++ schema ++ "`: " ++ reason

/-- The message for the user. Why a text or a file could not be read is not part of it. -/
def message : Error → String
  | jsonDocument => "Parse error: Failed to parse OpenAPI JSON"
  | yamlDocument => "Parse error: Failed to parse OpenAPI YAML"
  | unreadableDocument path => "Parse error: Failed to read OpenAPI file " ++ path
  | settingsText => "Parse error: Failed to parse config YAML"
  | settingsVersion version path =>
    "Parse error: Unsupported config version " ++ toString version ++
      (match path with
        | some path => " (in " ++ Text.quotedPath path ++ ")"
        | none => "")
  | unreadableSettings path => "Parse error: Failed to read config file " ++ Text.quotedPath path
  | jsonText => "JSON error"
  | unresolvableReference schema pointer =>
    "Unresolvable reference `" ++ pointer ++ "` in schema `" ++ schema ++ "`"
  | unsupportedType schema type => unsupported schema type
  | unmergeable schema kind => unsupported schema (kind ++ " inside allOf")
  | missingSchema schema => malformed schema "schema listed but not present"
  | namelessSchema schema => malformed schema "schema name has no identifier characters"
  | foreignLiteral schema literal =>
    malformed schema ("string enum contains non-string literal " ++ literal.compact)
  | cyclicInclusion chain => "Cyclic type inclusion: " ++ " -> ".intercalate chain
  | outputDirectory => "Generation error: Failed to create output directory"
  | outputFile name => "Generation error: Failed to write " ++ name

end Error
end SchemaTypes
