import SchemaTypes.Data.Entries
import SchemaTypes.Source.Node

/-!
# Reading source nodes

Readers of texts, flags, optional values, lists, maps, records and literals. A reader is given the
number of containers that may still open, and counts the aliases that it follows.
-/
namespace SchemaTypes.Source

open Data

/-- A reading in a source, with the number of aliases that may still be followed. -/
abbrev Read := ReaderT Root (StateT Nat Option)

/-- A reader of values, given the number of containers that may still open. -/
abbrev Reader (α : Type) := (levels : Nat) → Node → Read α

/-- The greatest number of containers one inside the other. -/
def nestingLimit : Nat := 128

/-- Reads the root of a source. -/
def Root.read {α : Type} (root : Root) (reader : Reader α) : Option α :=
  ((reader nestingLimit root.node).run root).run' root.aliasLimit

def refuse {α : Type} : Read α :=
  fun _ _ => none

def lift {α : Type} (value : Option α) : Read α :=
  fun _ aliases => value.map (·, aliases)

/-- The node itself, or the one that an alias stands for. -/
def follow : Node → Read Node
  | .alias slot => do
    match ← get with
    | 0 => refuse
    | left + 1 => do
      set left
      lift ((← read).slots.lookup slot)
  | node => pure node

def leafOf (node : Node) : Read Leaf := do
  match ← follow node with
  | .leaf value => pure value
  | _ => refuse

def text (_ : Nat) (node : Node) : Read String := do
  lift (← leafOf node).text

def flag (_ : Nat) (node : Node) : Read Bool := do
  lift (← leafOf node).flag

def count (_ : Nat) (node : Node) : Read Nat := do
  lift (← leafOf node).count

/-- Nothing, or what the reader finds. -/
def optional {α : Type} (reader : Reader α) (levels : Nat) (node : Node) : Read (Option α) := do
  let node ← follow node
  match node with
  | .leaf value =>
    match value.presence with
    | .absent => pure none
    | .present => do pure (some (← reader levels node))
    | .undecided => refuse
  | _ => do pure (some (← reader levels node))

/-- The items of a list; a blank leaf is the empty list. -/
def itemsOf (levels : Nat) (node : Node) : Read (List Node) := do
  match ← follow node with
  | .list _ items => if levels = 0 then refuse else pure items
  | .leaf value => if value.isBlank then pure [] else refuse
  | _ => refuse

/-- The entries of a table; a blank leaf is the empty table. -/
def entriesOf (levels : Nat) (node : Node) : Read (List (Node × Node)) := do
  match ← follow node with
  | .table _ entries => if levels = 0 then refuse else pure entries
  | .leaf value => if value.isBlank then pure [] else refuse
  | _ => refuse

/-- The entries of a table by the text of their keys. -/
def keyedEntriesOf (levels : Nat) (node : Node) : Read (List (String × Node)) := do
  (← entriesOf levels node).mapM fun (key, value) => do pure (← text levels key, value)

def listOf {α : Type} (reader : Reader α) (levels : Nat) (node : Node) : Read (List α) := do
  (← itemsOf levels node).mapM (reader (levels - 1))

/-- A map from texts: of a repeated key, the last value counts and the first position. -/
def mapOf {α : Type} (reader : Reader α) (levels : Nat) (node : Node) : Read (Entries α) := do
  let entries ← (← keyedEntriesOf levels node).mapM fun (key, value) => do
    pure (key, ← reader (levels - 1) value)
  pure (Entries.ofList entries)

/-- The fields of a record that have one of the names, each at most once. Where the source allows
it, a list gives the fields in the order of the names. -/
def fieldsOf (names : List String) (levels : Nat) (node : Node) : Read (List (String × Node)) := do
  let node ← follow node
  match node with
  | .list _ items =>
    if (← read).listsAsRecords && levels ≠ 0 && items.length ≤ names.length then
      pure (names.zip items)
    else refuse
  | _ => do
    let known := (← keyedEntriesOf levels node).filter fun e => names.contains e.1
    if (known.map Prod.fst).Nodup then pure known else refuse

/-- The field of the name, which has to be there. -/
def required {α : Type} (fields : List (String × Node)) (name : String) (reader : Reader α)
    (levels : Nat) : Read α := do
  reader levels (← lift (fields.lookup name))

/-- The field of the name, or a default where it is missing. -/
def orElse {α : Type} (fields : List (String × Node)) (name : String) (reader : Reader α)
    (default : α) (levels : Nat) : Read α :=
  match fields.lookup name with
  | some node => reader levels node
  | none => pure default

/-- A literal value. Objects are sorted by key. With `textKeys`, a key has to be a literal text;
otherwise any leaf will do. -/
def literal (textKeys : Bool) : Reader Json
  | 0, node => do
    lift (← leafOf node).literal
  | levels + 1, node => do
    match ← follow node with
    | .leaf value => lift value.literal
    | .list false items => do pure (.array (← items.mapM (literal textKeys levels)))
    | .table false entries => do
      let entries ← entries.mapM fun (key, value) => do
        let leaf ← leafOf key
        let name ← match leaf.literal with
          | some (.text s) => if textKeys then pure s else lift leaf.text
          | _ => if textKeys then refuse else lift leaf.text
        pure (name, ← literal textKeys levels value)
      pure (Json.sortedObject entries)
    | _ => refuse

end SchemaTypes.Source
