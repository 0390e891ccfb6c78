import SchemaTypes.Document.Reading
import SchemaTypes.Error
import SchemaTypes.Files.Host
import SchemaTypes.Files.Path
import SchemaTypes.Module.Text
import SchemaTypes.Settings

/-!
# Reading and writing files

Documents, settings and modules in the files of a host.
-/
namespace SchemaTypes.Files.Host

variable {m : Type → Type} [Monad m]

/-- The document in a file, which is JSON unless its name says YAML. -/
def document (host : Host m) (path : String) : ExceptT Error m Document := do
  match ← host.read path with
  | none => throw (.unreadableDocument path)
  | some text =>
    if isYaml path then
      match Document.ofYaml? text with
      | some d => pure d
      | none => throw .yamlDocument
    else
      match Document.ofJson? text with
      | some d => pure d
      | none => throw .jsonDocument

/-- The settings in a file. -/
def settings (host : Host m) (path : String) : ExceptT Error m Settings := do
  match ← host.read path with
  | none => throw (.unreadableSettings path)
  | some text => Settings.ofText path text

/-- Writes the module of a declaration set to a directory, which is made if it is missing, and gives
the path of the file. -/
def writeModule (host : Host m) (set : DeclarationSet) (directory fileName : String) :
    ExceptT Error m String := do
  if !(← host.createDirectories directory) then throw .outputDirectory
  let path := join directory fileName
  if !(← host.write path set.moduleText) then throw (.outputFile fileName)
  pure path

end SchemaTypes.Files.Host
