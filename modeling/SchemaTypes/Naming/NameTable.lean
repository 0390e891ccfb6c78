/-!
# Name tables

The names that are in use. The first claimant of a name keeps it; a later one gets the name with the
smallest number from 1 on that makes it free.
-/
namespace SchemaTypes.Naming

/-- The names that are in use. -/
structure NameTable where
  taken : List String := []
deriving Repr, DecidableEq, Inhabited

namespace NameTable

def contains (table : NameTable) (name : String) : Bool :=
  table.taken.contains name

/-- Marks a name as in use. -/
def reserve (table : NameTable) (name : String) : NameTable :=
  if table.contains name then table else ⟨name :: table.taken⟩

/-- The first number from `n` on, among the next `tries`, that makes `base` a free name. -/
def freeSuffixFrom (table : NameTable) (base : String) (n : Nat) : (tries : Nat) → Nat
  | 0 => n
  | tries + 1 =>
    if table.contains (base ++ toString n) then freeSuffixFrom table base (n + 1) tries else n

/-- The smallest number from 1 on that makes `base` a free name. As many tries as there are names
in use are enough, since the candidates differ from one another. -/
def freeSuffix (table : NameTable) (base : String) : Nat :=
  table.freeSuffixFrom base 1 table.taken.length

/-- The name that a claim for `base` is given. -/
def freeName (table : NameTable) (base : String) : String :=
  if table.contains base then base ++ toString (table.freeSuffix base) else base

/-- Takes `base`, or the first free numbered variant of it. -/
def claim (table : NameTable) (base : String) : String × NameTable :=
  let name := table.freeName base
  (name, table.reserve name)

end NameTable
end SchemaTypes.Naming
