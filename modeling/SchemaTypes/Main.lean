import SchemaTypes.Command.Run

/-!
# The command line

Runs the commands on the files and the output of the process.
-/
namespace SchemaTypes.Main

/-- What an action yields, or nothing where it fails. -/
def attempt {α : Type} (action : IO α) : IO (Option α) := do
  try pure (some (← action)) catch _ => pure none

/-- The host of the process. -/
def processHost : Files.Host IO where
  read path := attempt (IO.FS.readFile path)
  createDirectories path := do
    if path.isEmpty then pure true else pure (← attempt (IO.FS.createDirAll path)).isSome
  write path text := do pure (← attempt (IO.FS.writeFile path text)).isSome
  printLine := IO.println

/-- Says on the error output how a command ended. -/
def report : Command.Outcome → IO Unit
  | .done => pure ()
  | .failed failure => do
    IO.eprintln ("Error: " ++ failure.message)
    match failure.cause? with
    | some cause => IO.eprintln ("\nCaused by:\n    " ++ cause.message)
    | none => pure ()
  | .misused => IO.eprintln "error: the arguments make no sense"

end SchemaTypes.Main

def main (arguments : List String) : IO UInt32 := do
  let outcome ← SchemaTypes.Command.run SchemaTypes.Main.processHost arguments
  SchemaTypes.Main.report outcome
  pure outcome.exitCode.toUInt32
