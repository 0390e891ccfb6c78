import SchemaTypes.Command.Arguments

/-!
# Invocations

What the command line can ask for: a summary of the declarations of a document, or a module with
them, and the version.
-/
namespace SchemaTypes.Command

/-- What a module is made from, and where it goes. -/
structure Generation where
  document : String
  directory : String := "./output"
  settings : Option String := none
  prune : Bool := false
  seed : Option String := none
  withManifest : Bool := false
deriving Repr, DecidableEq, Inhabited

/-- What is asked for: a summary of a document, or a module made from it. -/
inductive Task where
  | summarize (document : String) (settings : Option String)
  | generate (generation : Generation)
deriving Repr, DecidableEq, Inhabited

inductive Invocation where
  | showVersion
  | run (verbose : Bool) (task : Task)
deriving Repr, DecidableEq, Inhabited

def verboseForm : OptionForm := ⟨"verbose", some 'v', .flag⟩

def commonForms : List OptionForm :=
  [verboseForm, ⟨"version", some 'V', .final⟩]

def summaryForms : List OptionForm :=
  [verboseForm, ⟨"spec", some 's', .value⟩, ⟨"config", some 'c', .value⟩]

def generationForms : List OptionForm :=
  summaryForms ++ [⟨"output", some 'o', .value⟩, ⟨"prune", none, .flag⟩, ⟨"seed", none, .value⟩,
    ⟨"manifest", none, .flag⟩]

/-- The options of a task, after which at most two hyphens may be left. -/
def taskOptions (forms : List OptionForm) (arguments : List String) : Option Given := do
  let (given, rest) ← readOptions forms (.ready {}) arguments
  if rest = [] ∨ rest = ["--"] then pure given else none

def taskOf (name : String) (arguments : List String) : Option (Given × Task) :=
  if name = "parse" then do
    let given ← taskOptions summaryForms arguments
    pure (given, .summarize (← given.value? "spec") (given.value? "config"))
  else if name = "generate" then do
    let given ← taskOptions generationForms arguments
    let plain : Generation := { document := ← given.value? "spec" }
    pure (given, .generate
      { plain with
        directory := (given.value? "output").getD plain.directory
        settings := given.value? "config"
        prune := given.hasFlag "prune"
        seed := given.value? "seed"
        withManifest := given.hasFlag "manifest" })
  else none

/-- What the arguments ask for, if they make sense. The version wins over what comes after it. -/
def Invocation.ofArguments? (arguments : List String) : Option Invocation := do
  let (common, rest) ← readOptions commonForms (.ready {}) arguments
  if common.hasFlag "version" then pure .showVersion
  else
    match rest with
    | [] => none
    | name :: rest => do
      let (given, task) ← taskOf name rest
      pure (.run (common.hasFlag "verbose" || given.hasFlag "verbose") task)

end SchemaTypes.Command
