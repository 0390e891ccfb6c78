/-!
# Arguments

Options among the arguments of a command: by a letter after a hyphen, where several flags can stand
together, or by a name after two.
-/
namespace SchemaTypes.Command

/-- What follows an option: nothing, a value that is not empty, or nothing that matters any more. -/
inductive OptionKind where
  | flag
  | value
  | final
deriving Repr, DecidableEq, Inhabited

/-- An option as it may be written: after two dashes by its name, after one by its letter. -/
structure OptionForm where
  name : String
  letter : Option Char := none
  kind : OptionKind
deriving Repr, DecidableEq, Inhabited

/-- The options that were given, by name, with their values. -/
structure Given where
  flags : List String := []
  values : List (String × String) := []
deriving Repr, DecidableEq, Inhabited

namespace Given

def hasFlag (g : Given) (name : String) : Bool :=
  g.flags.contains name

def value? (g : Given) (name : String) : Option String :=
  g.values.lookup name

/-- No flag is given twice. -/
def addFlag (g : Given) (name : String) : Option Given :=
  if g.hasFlag name then none else some { g with flags := name :: g.flags }

/-- No value is given twice, and none is empty. -/
def addValue (g : Given) (name value : String) : Option Given :=
  if value.isEmpty || (g.value? name).isSome then none
  else some { g with values := (name, value) :: g.values }

end Given

/-- How far the options are read: another argument may follow, one has to follow as a value, or none
matters any more. -/
inductive Progress where
  | ready (given : Given)
  | awaiting (given : Given) (name : String)
  | ended (given : Given)
deriving Repr, DecidableEq, Inhabited

/-- Reads options that stand together as letters. The value of one is the rest of the argument, with
or without an equals sign, or the next argument. -/
def readLetters (forms : List OptionForm) (given : Given) : List Char → Option Progress
  | [] => some (.ready given)
  | c :: rest => do
    let form ← forms.find? (·.letter == some c)
    match form.kind with
    | .flag => readLetters forms (← given.addFlag form.name) rest
    | .final => do pure (.ended (← given.addFlag form.name))
    | .value =>
      match rest with
      | [] => pure (.awaiting given form.name)
      | '=' :: value => do pure (.ready (← given.addValue form.name (String.ofList value)))
      | value => do pure (.ready (← given.addValue form.name (String.ofList value)))

/-- Reads an option by its name. Its value follows an equals sign or is the next argument. -/
def readName (forms : List OptionForm) (given : Given) (cs : List Char) : Option Progress := do
  let form ← forms.find? (·.name.toList == cs.takeWhile (· ≠ '='))
  match form.kind, cs.dropWhile (· ≠ '=') with
  | .flag, [] => do pure (.ready (← given.addFlag form.name))
  | .final, [] => do pure (.ended (← given.addFlag form.name))
  | .value, [] => pure (.awaiting given form.name)
  | .value, _ :: value => do pure (.ready (← given.addValue form.name (String.ofList value)))
  | _, _ :: _ => none

/-- Does an argument look like an option? A hyphen alone does not. -/
def looksLikeOption (argument : String) : Bool :=
  match argument.toList with
  | '-' :: _ :: _ => true
  | _ => false

/-- Reads the options up to the first argument that is none, and gives what is left. -/
def readOptions (forms : List OptionForm) : Progress → List String → Option (Given × List String)
  | .ended given, _ => some (given, [])
  | .ready given, [] => some (given, [])
  | .awaiting .., [] => none
  | .awaiting given name, argument :: rest =>
    if looksLikeOption argument then none
    else do readOptions forms (.ready (← given.addValue name argument)) rest
  | .ready given, argument :: rest =>
    match argument.toList with
    | ['-', '-'] => some (given, argument :: rest)
    | '-' :: '-' :: cs => do readOptions forms (← readName forms given cs) rest
    | '-' :: c :: cs => do readOptions forms (← readLetters forms given (c :: cs)) rest
    | _ => some (given, argument :: rest)

end SchemaTypes.Command
