import SchemaTypes.Command.Invocation
import SchemaTypes.Files.Exchange
import SchemaTypes.Resolve.Pass
import SchemaTypes.Types.Manifest

/-!
# Running commands

The tasks of the command line on a host: what they read, print and write, and where they give up.
-/
namespace SchemaTypes.Command

open Files

/-- At what a task gave up, and why. -/
inductive Failure where
  | settings (path : String) (cause : Error)
  | document (cause : Error)
  | schemas (cause : Error)
  | unreadableManifest (path : String)
  | manifestText (path : String)
  | resolution (cause : Error)
  | module (cause : Error)
  | manifestFile (path : String)
deriving Inhabited

namespace Failure

def message : Failure → String
  | settings path _ => "Failed to load config " ++ path
  | document _ => "Failed to load OpenAPI spec"
  | schemas _ => "Failed to read component schemas"
  | unreadableManifest path => "Failed to read manifest " ++ path
  | manifestText path => "Failed to parse manifest " ++ path
  | resolution _ => "Failed to resolve schemas"
  | module _ => "Failed to generate types"
  | manifestFile path => "Failed to write " ++ path

def cause? : Failure → Option Error
  | settings _ cause | document cause | schemas cause | resolution cause | module cause =>
    some cause
  | manifestText _ => some .jsonText
  | unreadableManifest _ | manifestFile _ => none

end Failure

/-- The file that a manifest is written to. -/
def manifestFileName : String :=
  "declarations.json"

def versionText : String :=
  "openapi-typegen 0.1.0"

variable {m : Type → Type} [Monad m]

/-- A task on a host. -/
abbrev TaskM (m : Type → Type) := ExceptT Failure m

/-- Prints a line. -/
def say (host : Host m) (line : String) : TaskM m Unit :=
  host.printLine line

/-- Prints what is being done. -/
def tell (host : Host m) (text : String) : TaskM m Unit :=
  say host ("→ " ++ text)

/-- Gives up a task where a part of it fails. -/
def orFail {α : Type} (failure : Error → Failure) (x : ExceptT Error m α) : TaskM m α :=
  x.adapt failure

def ofResult {α : Type} (x : Except Error α) : ExceptT Error m α :=
  ExceptT.mk (pure x)

def settingsAt (host : Host m) : Option String → TaskM m Settings
  | some path => orFail (.settings path) (host.settings path)
  | none => pure {}

def manifestAt (host : Host m) (path : String) : TaskM m DeclarationSet := do
  match ← host.read path with
  | none => throw (.unreadableManifest path)
  | some text =>
    match Manifest.read text with
    | some set => pure set
    | none => throw (.manifestText path)

/-- The pass over a document that the settings ask for. What the operations use is retained. -/
def declarations (host : Host m) (path : String) (settings : Settings) (prune : Bool)
    (seed : Option String) : TaskM m DeclarationSet := do
  let d ← orFail .document (host.document path)
  let pass ← orFail .schemas (ofResult (Pass.ofDocument d))
  let pass := { (pass.retain d.operationReferences).retain settings.retain with
    reserved := settings.reserved, prune := prune || settings.prune }
  let pass ← match seed with
    | some path => do
      tell host ("Seeding from manifest: " ++ path)
      pure (pass.seedWith (← manifestAt host path))
    | none => pure pass
  orFail .resolution (ofResult pass.run)

/-- The kind of a declaration in a summary. -/
def kindName : Declaration → String
  | .record .. => "record"
  | .union .. => "union"
  | .array .. => "array"
  | .scalar .. => "scalar"
  | .any .. => "anydata"

/-- The lines for the numbers of declarations. -/
def summaryLines (set : DeclarationSet) : List String :=
  ["", "✓ Parse successful!", "", "Declarations:",
    "  Types: " ++ toString set.declarations.length,
    "  Enums: " ++ toString set.enums.length,
    "  Referenced names: " ++ toString set.referenced.toList.length]

/-- The lines for the single declarations. -/
def listLines (set : DeclarationSet) : List String :=
  ["", "Types:"] ++
    set.declarations.map (fun d => "  • " ++ d.name ++ " (" ++ kindName d ++ ")") ++
    (if set.enums.isEmpty then [] else
      ["", "Enums:"] ++ set.enums.map fun e =>
        "  • " ++ e.name ++ " (" ++ toString e.members.length ++ " members)")

def runSummary (host : Host m) (verbose : Bool) (document : String) (settingsPath : Option String) :
    TaskM m Unit := do
  tell host ("Parsing spec file: " ++ document)
  let settings ← settingsAt host settingsPath
  let set ← declarations host document settings settings.prune none
  (summaryLines set).forM (say host)
  if verbose then (listLines set).forM (say host)

def fileLine (path : String) : String :=
  "  📄 " ++ path

def runGeneration (host : Host m) (verbose : Bool) (g : Generation) : TaskM m Unit := do
  tell host ("Generating types from: " ++ g.document)
  let settings ← settingsAt host g.settings
  if verbose then do
    say host ("  Output: " ++ g.directory)
    say host ("  File: " ++ settings.fileName)
    say host ("  Prune: " ++ toString (g.prune || settings.prune))
  tell host "Resolving schemas..."
  let set ← declarations host g.document settings g.prune g.seed
  say host ("✓ Resolved " ++ toString set.declarations.length ++ " types and " ++
    toString set.enums.length ++ " enums")
  tell host "Rendering types module..."
  let path ← orFail .module (host.writeModule set g.directory settings.fileName)
  ["", "✓ Generation complete!", "", "Generated files:", fileLine path].forM (say host)
  if g.withManifest then do
    let path := join g.directory manifestFileName
    if !(← host.write path (Manifest.setJson set).indented) then throw (.manifestFile path)
    say host (fileLine path)

def Task.run (host : Host m) (verbose : Bool) (task : Task) : TaskM m Unit := do
  if verbose then tell host "Verbose mode enabled"
  match task with
  | .summarize document settings => runSummary host verbose document settings
  | .generate generation => runGeneration host verbose generation

/-- How a command ended. -/
inductive Outcome where
  | done
  | failed (failure : Failure)
  | misused
deriving Inhabited

def Outcome.exitCode : Outcome → Nat
  | .done => 0
  | .failed _ => 1
  | .misused => 2

/-- Runs what the arguments ask for. -/
def run (host : Host m) (arguments : List String) : m Outcome := do
  match Invocation.ofArguments? arguments with
  | none => pure .misused
  | some .showVersion => do
    host.printLine versionText
    pure .done
  | some (.run verbose task) => do
    match ← (task.run host verbose).run with
    | .ok () => pure .done
    | .error failure => pure (.failed failure)

end SchemaTypes.Command
