import SchemaTypes.Json.Tree

/-!
# Source nodes

One view of JSON and YAML texts for reading documents and settings: a leaf is known by what it can
be read as, so that each reader of a value is written once for both formats.
-/
namespace SchemaTypes.Source

/-- Whether an optional value is given. -/
inductive Presence where
  | absent
  | present
  | undecided
deriving Repr, DecidableEq, Inhabited

/-- The readings of a leaf: as a text, as a flag, as a number of things, as an optional value, as an
empty list or record, and as a literal value. -/
structure Leaf where
  text : Option String
  flag : Option Bool
  count : Option Nat
  presence : Presence
  isBlank : Bool
  literal : Option Json
deriving Inhabited

/-- A part of a source. A `custom` list or table carries a tag of its own, which no literal value
may have. An alias stands for the node in a numbered slot. -/
inductive Node where
  | unreadable
  | leaf (value : Leaf)
  | list (custom : Bool) (items : List Node)
  | table (custom : Bool) (entries : List (Node × Node))
  | alias (slot : Nat)
deriving Inhabited

/-- A source as a whole: its root, the nodes that aliases stand for, how many aliases may be
followed, and whether a record may be given as the list of its fields. -/
structure Root where
  node : Node
  slots : List (Nat × Node)
  aliasLimit : Nat
  listsAsRecords : Bool
deriving Inhabited

/-- The text of a JSON object's key or of a JSON string. -/
def Leaf.ofText (s : String) : Leaf :=
  ⟨some s, none, none, .present, false, some (.text s)⟩

mutual

def Node.ofTree : Json.Tree → Node
  | .unreadable => .unreadable
  | .null => .leaf ⟨none, none, none, .absent, false, some .null⟩
  | .bool b => .leaf ⟨none, some b, none, .present, false, some (.bool b)⟩
  | .number n => .leaf ⟨none, none, none, .present, false, some (.number n)⟩
  | .text s => .leaf (.ofText s)
  | .array items => .list false (Node.ofTrees items)
  | .object entries => .table false (Node.ofEntries entries)
termination_by structural tree => tree

def Node.ofTrees : List Json.Tree → List Node
  | [] => []
  | tree :: rest => Node.ofTree tree :: Node.ofTrees rest
termination_by structural trees => trees

def Node.ofEntries : List (String × Json.Tree) → List (Node × Node)
  | [] => []
  | (key, tree) :: rest => (.leaf (.ofText key), Node.ofTree tree) :: Node.ofEntries rest
termination_by structural entries => entries

end

/-- A JSON tree as a source. JSON has no aliases. -/
def Root.ofTree (tree : Json.Tree) : Root :=
  ⟨.ofTree tree, [], 0, true⟩

end SchemaTypes.Source
