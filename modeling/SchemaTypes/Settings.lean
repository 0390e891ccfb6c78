import SchemaTypes.Error
import SchemaTypes.Module.Text
import SchemaTypes.Naming.Identifier
import SchemaTypes.Text.Blank
import SchemaTypes.Yaml.Source
import SchemaTypes.Source.Reading

/-!
# Settings

What a project can settle in a YAML file: words that are no field names, names that pruning keeps,
whether to prune, and the name of the module's file. All of them have defaults.
-/
namespace SchemaTypes

open Naming Source

/-- The settings; what a text leaves out is as it is here. -/
structure Settings where
  version : Nat := 1
  reserved : ReservedWords := {}
  retain : List String := []
  prune : Bool := false
  fileName : String := moduleFileName
deriving Inhabited

namespace Settings

/-- A version is a number of 32 bits. -/
def versionReader : Reader Nat := fun levels node => do
  let n ← count levels node
  if n < Nat.pow 2 32 then pure n else refuse

def reservedReader : Reader ReservedWords := fun levels node => do
  let fields ← fieldsOf ["reserved_words"] levels node
  pure ⟨← orElse fields "reserved_words" (listOf text) [] (levels - 1)⟩

def fileNameReader : Reader String := fun levels node => do
  let fields ← fieldsOf ["file_name"] levels node
  orElse fields "file_name" text moduleFileName (levels - 1)

def reader : Reader Settings := fun levels node => do
  let fields ← fieldsOf ["version", "naming", "retain", "prune_unused", "output"] levels node
  let inner := levels - 1
  pure {
    version := ← orElse fields "version" versionReader 1 inner
    reserved := ← orElse fields "naming" reservedReader {} inner
    retain := ← orElse fields "retain" (listOf text) [] inner
    prune := ← orElse fields "prune_unused" flag false inner
    fileName := ← orElse fields "output" fileNameReader moduleFileName inner }

/-- The settings in a text, which may be blank; only version 1 is known. `path` is the file that the
text is from. -/
def ofText (path : Option String) (s : String) : Except Error Settings :=
  if Text.trim s = "" then .ok {}
  else
    match (Yaml.read s).bind (·.read reader) with
    | none => .error .settingsText
    | some settings =>
      if settings.version = 1 then .ok settings
      else .error (.settingsVersion settings.version path)

end Settings
end SchemaTypes
