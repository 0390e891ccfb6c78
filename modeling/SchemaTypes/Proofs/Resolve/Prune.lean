import SchemaTypes.Proofs.Resolve.Search
import SchemaTypes.Proofs.Types.References
import Mathlib.Data.List.Nodup

/-!
# Pruning keeps sets valid

The names of a valid set are distinct, its references have targets, and no inclusion leads back.
What the roots reach is closed under references, so what pruning keeps never refers to what it
drops.
-/
namespace SchemaTypes.DeclarationSet

open Data

variable {set : DeclarationSet} {roots : NameSet} {name : String} {d : Declaration}

/-- Every mentioned name is the name of a declaration or an enum of the set. -/
def Closed (set : DeclarationSet) : Prop :=
  ∀ d ∈ set.declarations, ∀ name, d.Mentions name → name ∈ set.names

/-- A record declared under the first name has an inclusion of the second one among its members. -/
def Includes (set : DeclarationSet) (name included : String) : Prop :=
  ∃ d ∈ set.declarations, d.name = name ∧ .inclusion included ∈ d.members

/-- No chain of inclusions leads back to where it starts. -/
def Acyclic (set : DeclarationSet) : Prop :=
  ∀ name, ¬ Relation.TransGen set.Includes name name

structure Valid (set : DeclarationSet) : Prop where
  distinct : set.names.Nodup
  closed : set.Closed
  acyclic : set.Acyclic

theorem mem_names :
    name ∈ set.names ↔
      (∃ d ∈ set.declarations, d.name = name) ∨ ∃ e ∈ set.enums, e.name = name := by
  simp [names]

/-! ### Reachable names -/

theorem declaration?_of_mem (distinct : (set.declarations.map Declaration.name).Nodup)
    (member : d ∈ set.declarations) : set.declaration? d.name = some d := by
  cases found : set.declaration? d.name with
  | none =>
    have other := List.find?_eq_none.mp found d member
    exact absurd (beq_self_eq_true d.name) other
  | some first =>
    have same : first.name = d.name := by simpa using List.find?_some found
    have listed := List.mem_of_find?_eq_some found
    rw [List.inj_on_of_nodup_map distinct listed member same]

theorem referencesOf_support (declared : set.referencesOf name ≠ []) :
    name ∈ set.declarations.map Declaration.name := by
  unfold referencesOf at declared
  split at declared
  next d found =>
    have same := List.find?_some found
    exact List.mem_map.mpr ⟨d, List.mem_of_find?_eq_some found, by simpa using same⟩
  · exact absurd rfl declared

theorem reachable_closed (set : DeclarationSet) (roots : List String) :
    roots ⊆ set.reachable roots ∧
      ∀ x ∈ set.reachable roots, set.referencesOf x ⊆ set.reachable roots :=
  foldl_walk_closed (fun _ => referencesOf_support) (by simp) roots

/-! ### Pruned sets -/

theorem mem_prune_declarations :
    d ∈ (set.prune roots).1.declarations ↔
      d ∈ set.declarations ∧ d.name ∈ set.reachable roots.toList := by
  simp [prune]

theorem prune_names_sublist (set : DeclarationSet) (roots : NameSet) :
    (set.prune roots).1.names.Sublist set.names :=
  (List.filter_sublist.map _).append (List.Sublist.refl _)

theorem prune_closed (distinct : (set.declarations.map Declaration.name).Nodup)
    (closed : set.Closed) : (set.prune roots).1.Closed := by
  intro d kept name mentioned
  obtain ⟨member, reached⟩ := mem_prune_declarations.mp kept
  rw [mem_names]
  rcases mem_names.mp (closed d member name mentioned) with ⟨target, declared, rfl⟩ | isEnum
  · refine Or.inl ⟨target, mem_prune_declarations.mpr ⟨declared, ?_⟩, rfl⟩
    -- No other declaration has the name of this one, so the walk has seen its references.
    have edge : target.name ∈ set.referencesOf d.name := by
      rw [referencesOf, declaration?_of_mem distinct member]
      exact Declaration.mem_references_iff.mpr mentioned
    exact (reachable_closed set roots.toList).2 d.name reached edge
  · exact Or.inr isEnum

theorem prune_acyclic (acyclic : set.Acyclic) : (set.prune roots).1.Acyclic := by
  have kept : ∀ a b, (set.prune roots).1.Includes a b → set.Includes a b := by
    rintro a b ⟨d, kept, named, included⟩
    exact ⟨d, (mem_prune_declarations.mp kept).1, named, included⟩
  exact fun name cycle => acyclic name (Relation.TransGen.mono kept name name cycle)

theorem prune_valid (valid : set.Valid) (roots : NameSet) : (set.prune roots).1.Valid :=
  ⟨valid.distinct.sublist (prune_names_sublist set roots),
    prune_closed valid.distinct.of_append_left valid.closed, prune_acyclic valid.acyclic⟩

theorem empty_valid : empty.Valid where
  distinct := List.nodup_nil
  closed _ member := nomatch member
  acyclic name cycle := by
    obtain ⟨included, ⟨_, member, _⟩, -⟩ := Relation.TransGen.head'_iff.mp cycle
    cases member

end SchemaTypes.DeclarationSet
