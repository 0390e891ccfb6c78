/-!
# Hosts

What reading documents and writing modules needs of the place where it is done.
-/
namespace SchemaTypes.Files

/-- A place with files and an output. Where something cannot be read or written, the answer says
so. -/
structure Host (m : Type → Type) where
  /-- The text of a file. -/
  read : (path : String) → m (Option String)
  /-- Makes a directory with all the directories that it is in, as far as they are missing. -/
  createDirectories : (path : String) → m Bool
  write : (path text : String) → m Bool
  printLine : String → m Unit

end SchemaTypes.Files
