import SchemaTypes.Json.Number
import SchemaTypes.Text.Quoted

/-!
# JSON values

Values and their two written forms, compact and indented. Objects are written in the order of their
entries.
-/
namespace SchemaTypes

/-- A JSON value. The entries of an object are in the order in which they are written out. -/
inductive Json where
  | null
  | bool (value : Bool)
  | number (value : Json.Number)
  | text (value : String)
  | array (items : List Json)
  | object (entries : List (String × Json))
deriving Inhabited

namespace Json

/-- Puts an entry into an object sorted by key; a later entry replaces an earlier one. -/
def insertKey (key : String) (value : Json) : List (String × Json) → List (String × Json)
  | [] => [(key, value)]
  | (k, v) :: rest =>
    if key < k then (key, value) :: (k, v) :: rest
    else if key = k then (key, value) :: rest
    else (k, v) :: insertKey key value rest

/-- The object with its entries sorted by key, the last of equal keys counting. -/
def sortedObject (entries : List (String × Json)) : Json :=
  .object (entries.foldl (fun acc e => insertKey e.1 e.2 acc) [])

def isNull : Json → Bool
  | .null => true
  | _ => false

/-- Is this the value `true`? -/
def isTrue : Json → Bool
  | .bool value => value
  | _ => false

def option (value : Option String) : Json :=
  match value with
  | some s => .text s
  | none => .null

def texts (values : List String) : Json :=
  .array (values.map .text)

mutual

/-- The value on one line, without blanks. -/
def compactChars : Json → List Char
  | .null => "null".toList
  | .bool value => (if value then "true" else "false").toList
  | .number value => value.text.toList
  | .text value => Text.quoteJson value.toList
  | .array items => '[' :: compactItems items ++ [']']
  | .object entries => '{' :: compactEntries entries ++ ['}']
termination_by structural value => value

def compactItems : List Json → List Char
  | [] => []
  | value :: rest => compactChars value ++ compactLaterItems rest
termination_by structural items => items

def compactLaterItems : List Json → List Char
  | [] => []
  | value :: rest => ',' :: compactChars value ++ compactLaterItems rest
termination_by structural items => items

def compactEntries : List (String × Json) → List Char
  | [] => []
  | (key, value) :: rest =>
    Text.quoteJson key.toList ++ ':' :: compactChars value ++ compactLaterEntries rest
termination_by structural entries => entries

def compactLaterEntries : List (String × Json) → List Char
  | [] => []
  | (key, value) :: rest =>
    ',' :: Text.quoteJson key.toList ++ ':' :: compactChars value ++ compactLaterEntries rest
termination_by structural entries => entries

end

def compact (value : Json) : String :=
  String.ofList (compactChars value)

/-- A new line at the given depth, two blanks a level. -/
def newLine (depth : Nat) : List Char :=
  '\n' :: List.replicate (2 * depth) ' '

mutual

/-- The value with one item or entry a line; empty arrays and objects stay on one line. -/
def indentedChars (depth : Nat) : Json → List Char
  | .null => "null".toList
  | .bool value => (if value then "true" else "false").toList
  | .number value => value.text.toList
  | .text value => Text.quoteJson value.toList
  | .array [] => "[]".toList
  | .array (value :: rest) =>
    '[' :: newLine (depth + 1) ++ indentedChars (depth + 1) value ++
      indentedLaterItems (depth + 1) rest ++ newLine depth ++ [']']
  | .object [] => ['{', '}']
  | .object ((key, value) :: rest) =>
    '{' :: newLine (depth + 1) ++ Text.quoteJson key.toList ++ ": ".toList ++
      indentedChars (depth + 1) value ++ indentedLaterEntries (depth + 1) rest ++
      newLine depth ++ ['}']
termination_by structural value => value

def indentedLaterItems (depth : Nat) : List Json → List Char
  | [] => []
  | value :: rest =>
    ',' :: newLine depth ++ indentedChars depth value ++ indentedLaterItems depth rest
termination_by structural items => items

def indentedLaterEntries (depth : Nat) : List (String × Json) → List Char
  | [] => []
  | (key, value) :: rest =>
    ',' :: newLine depth ++ Text.quoteJson key.toList ++ ": ".toList ++
      indentedChars depth value ++ indentedLaterEntries depth rest
termination_by structural entries => entries

end

def indented (value : Json) : String :=
  String.ofList (indentedChars 0 value)

end Json
end SchemaTypes
