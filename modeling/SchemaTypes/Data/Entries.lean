/-!
# Entries

Ordered maps from names: the entries keep the order in which their keys first came.
-/
namespace SchemaTypes.Data

/-- A table in the order of its entries. `ofList` and `insert` never repeat a key. -/
abbrev Entries (α : Type) := List (String × α)

namespace Entries
variable {α : Type}

def keys (es : Entries α) : List String :=
  es.map Prod.fst

/-- The value of the first entry with the key. -/
def get? (es : Entries α) (key : String) : Option α :=
  es.lookup key

def contains (es : Entries α) (key : String) : Bool :=
  es.any fun e => e.1 == key

/-- Replaces the value of a known key in its place, and puts a new key at the end. -/
def insert (key : String) (value : α) : Entries α → Entries α
  | [] => [(key, value)]
  | (k, v) :: rest => if k = key then (k, value) :: rest else (k, v) :: insert key value rest

/-- Of a repeated key, the last value counts and the first position. -/
def ofList (es : List (String × α)) : Entries α :=
  es.foldl (fun acc e => insert e.1 e.2 acc) []

end Entries
end SchemaTypes.Data
