import SchemaTypes.Json.Value

/-!
# JSON trees

A JSON text as it was written: objects keep the order of their entries and their repeated keys. A
part that is well formed but that nothing can be made of (a lone surrogate, a number beyond the
doubles, a value nested too deep) is there without its content, so that it does no harm where it is
passed over.
-/
namespace SchemaTypes.Json

inductive Tree where
  | unreadable
  | null
  | bool (value : Bool)
  | number (value : Number)
  | text (value : String)
  | array (items : List Tree)
  | object (entries : List (String × Tree))
deriving Inhabited

namespace Tree

mutual

/-- Does the tree have all its content? -/
def isReadable : Tree → Bool
  | .unreadable => false
  | .array items => areReadable items
  | .object entries => areEntriesReadable entries
  | _ => true
termination_by structural tree => tree

def areReadable : List Tree → Bool
  | [] => true
  | tree :: rest => tree.isReadable && areReadable rest
termination_by structural trees => trees

def areEntriesReadable : List (String × Tree) → Bool
  | [] => true
  | (_, tree) :: rest => tree.isReadable && areEntriesReadable rest
termination_by structural entries => entries

end

mutual

/-- The tree of a value. -/
def ofJson : Json → Tree
  | .null => .null
  | .bool value => .bool value
  | .number value => .number value
  | .text value => .text value
  | .array items => .array (ofItems items)
  | .object entries => .object (ofEntries entries)
termination_by structural value => value

def ofItems : List Json → List Tree
  | [] => []
  | value :: rest => ofJson value :: ofItems rest
termination_by structural items => items

def ofEntries : List (String × Json) → List (String × Tree)
  | [] => []
  | (key, value) :: rest => (key, ofJson value) :: ofEntries rest
termination_by structural entries => entries

end
end Tree
end SchemaTypes.Json
