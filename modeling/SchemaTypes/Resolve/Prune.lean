import SchemaTypes.Types.Declaration

/-!
# Pruning

Keeps the declarations that the roots reach along references, and all enums.
-/
namespace SchemaTypes

open Data

/-- The nodes visited by a depth-first walk from a node, newest first. -/
def walk (edges : String → List String) :
    (fuel : Nat) → (visited : List String) → (node : String) → List String
  | 0, visited, _ => visited
  | fuel + 1, visited, node =>
    if node ∈ visited then visited
    else (edges node).foldl (walk edges fuel) (node :: visited)

namespace DeclarationSet

/-- The names that the first declaration of a name refers to. -/
def referencesOf (set : DeclarationSet) (name : String) : List String :=
  match set.declaration? name with
  | some d => d.references
  | none => []

/-- The names that the roots reach. Each step of a walk but the last is a new declared name, so the
number of declarations bounds its depth. -/
def reachable (set : DeclarationSet) (roots : List String) : List String :=
  roots.foldl (walk set.referencesOf (set.declarations.length + 2)) []

/-- The set without the declarations that the roots do not reach, and the names of those. -/
def prune (set : DeclarationSet) (roots : NameSet) : DeclarationSet × List String :=
  let reached := set.reachable roots.toList
  ({ set with declarations := set.declarations.filter fun d => reached.contains d.name },
    (set.declarations.filter fun d => !reached.contains d.name).map Declaration.name)

end DeclarationSet
end SchemaTypes
