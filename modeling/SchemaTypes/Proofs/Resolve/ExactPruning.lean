import SchemaTypes.Proofs.Resolve.Prune
import SchemaTypes.Proofs.Resolve.Worklist

/-!
# Pruning is exact

What is kept are the declarations of the names that are needed: the roots, and with a name all that
its first declaration refers to. The loop that collects these names comes to an end. A set that was pruned needs the same names for fewer roots, so that
pruning with them comes to the same, whether it is done at once or after pruning with more roots.
-/
namespace SchemaTypes

/-! ### Walks visit nothing else -/

section Walks

variable {edges : String → List String} {nodes visited : List String} {node : String}

theorem forall_mem_foldl_walk {Inside : String → Prop} {fuel : Nat}
    (step : ∀ visited node, (∀ x ∈ visited, Inside x) → Inside node →
      ∀ x ∈ walk edges fuel visited node, Inside x)
    {next : List String} (old : ∀ x ∈ visited, Inside x) (start : ∀ x ∈ next, Inside x) :
    ∀ x ∈ next.foldl (walk edges fuel) visited, Inside x := by
  induction next generalizing visited with
  | nil => exact old
  | cons n rest ih =>
    obtain ⟨first, later⟩ := List.forall_mem_cons.mp start
    exact ih (step visited n old first) later

/-- A walk never leaves what is closed under the edges. -/
theorem forall_mem_walk {Inside : String → Prop} (closed : ∀ x, Inside x → ∀ y ∈ edges x, Inside y)
    {fuel : Nat} (visited : List String) (node : String) (old : ∀ x ∈ visited, Inside x)
    (start : Inside node) : ∀ x ∈ walk edges fuel visited node, Inside x := by
  induction fuel generalizing visited node with
  | zero => exact old
  | succ fuel ih =>
    rw [walk]
    split
    · exact old
    · exact forall_mem_foldl_walk ih (List.forall_mem_cons.mpr ⟨start, old⟩) (closed node start)

theorem foldl_walk_congr {fuel more : Nat}
    (support : ∀ x, edges x ≠ [] → x ∈ nodes)
    (step : ∀ visited node, unvisited nodes visited < fuel →
      walk edges more visited node = walk edges fuel visited node)
    (next : List String) (enough : unvisited nodes visited < fuel) :
    next.foldl (walk edges more) visited = next.foldl (walk edges fuel) visited := by
  induction next generalizing visited with
  | nil => rfl
  | cons n rest ih =>
    have grows : visited ⊆ walk edges fuel visited n := (walk_explores support enough).2.kept
    rw [List.foldl_cons, List.foldl_cons, step visited n enough]
    exact ih (Nat.lt_of_le_of_lt (unvisited_le_of_subset grows) enough)

/-- A walk ends by itself: with enough fuel for the unvisited nodes, more fuel changes nothing. -/
theorem walk_of_le (support : ∀ x, edges x ≠ [] → x ∈ nodes) {fuel more : Nat}
    (enough : unvisited nodes visited < fuel) (le : fuel ≤ more) :
    walk edges more visited node = walk edges fuel visited node := by
  induction fuel generalizing visited node more with
  | zero => exact absurd enough (Nat.not_lt_zero _)
  | succ fuel ih =>
    obtain ⟨more, rfl⟩ : ∃ n, more = n + 1 := ⟨more - 1, by omega⟩
    have le : fuel ≤ more := by omega
    rw [walk, walk]
    split
    next => rfl
    next new =>
      -- Only a node with edges is known to be among the nodes, and only that one needs fuel.
      cases targets : edges node with
      | nil => rfl
      | cons n rest =>
        have known : node ∈ nodes := support node (by simp [targets])
        have fewer := unvisited_cons_lt known new
        exact foldl_walk_congr support (fun _ _ enough => ih enough le) _ (by omega)

end Walks

namespace DeclarationSet

open Data

variable {set : DeclarationSet} {roots fewer : NameSet} {name : String} {d : Declaration}

/-! ### Needed names -/

/-- The least set of names with the roots in it and, for each of its names, what the first
declaration of the name refers to. -/
inductive Needs (set : DeclarationSet) (roots : NameSet) : String → Prop
  | root {name : String} : name ∈ roots → Needs set roots name
  | reference {name target : String} {d : Declaration} : Needs set roots name →
    set.declaration? name = some d → target ∈ d.references → Needs set roots target

theorem mem_referencesOf {target : String} :
    target ∈ set.referencesOf name ↔
      ∃ d, set.declaration? name = some d ∧ target ∈ d.references := by
  unfold referencesOf
  cases set.declaration? name <;> simp

/-- What the roots reach is exactly what is needed for them. -/
theorem mem_reachable_iff : name ∈ set.reachable roots.toList ↔ set.Needs roots name := by
  constructor
  · have closed : ∀ x, set.Needs roots x → ∀ y ∈ set.referencesOf x, set.Needs roots y := by
      intro x needed y edge
      obtain ⟨d, declared, refers⟩ := mem_referencesOf.mp edge
      exact needed.reference declared refers
    exact forall_mem_foldl_walk (forall_mem_walk closed) (List.forall_mem_nil _) (fun _ => .root)
      name
  · obtain ⟨start, closed⟩ := reachable_closed set roots.toList
    intro needed
    induction needed with
    | root member => exact start member
    | reference _ declared refers ih =>
      exact closed _ ih (mem_referencesOf.mpr ⟨_, declared, refers⟩)

/-- A name is needed exactly if references lead to it from a root. -/
theorem needs_iff_reaches :
    set.Needs roots name ↔ ∃ root ∈ roots, Reaches set.referencesOf root name := by
  constructor
  · intro needed
    induction needed with
    | root member => exact ⟨_, member, .refl⟩
    | reference _ declared refers ih =>
      obtain ⟨root, member, path⟩ := ih
      exact ⟨root, member, path.tail (mem_referencesOf.mpr ⟨_, declared, refers⟩)⟩
  · rintro ⟨root, member, path⟩
    induction path with
    | refl => exact .root member
    | tail _ edge ih =>
      obtain ⟨d, declared, refers⟩ := mem_referencesOf.mp edge
      exact ih.reference declared refers

/-- The loop over the worklist comes to one end, with the needed names. -/
theorem exists_collected (set : DeclarationSet) (roots : NameSet) :
    ∃ reached : NameSet,
      (∀ other, Collects set.referencesOf .empty roots.toList.reverse other ↔ other = reached) ∧
      ∀ name, name ∈ reached ↔ set.Needs roots name := by
  obtain ⟨reached, ends, members⟩ :=
    collects_exact (@referencesOf_support set) roots.toList.reverse
  refine ⟨reached, ends, fun name => ?_⟩
  rw [members, needs_iff_reaches]
  simp [NameSet.mem_def]

instance : DecidablePred (set.Needs roots) :=
  fun _ => decidable_of_iff _ mem_reachable_iff

theorem contains_reachable :
    (set.reachable roots.toList).contains name = decide (set.Needs roots name) := by
  rw [Bool.eq_iff_iff, List.contains_iff_mem, mem_reachable_iff, decide_eq_true_iff]

/-- Pruning drops the declarations of names that are not needed, and names them. -/
theorem prune_eq (set : DeclarationSet) (roots : NameSet) :
    set.prune roots =
      ({ set with declarations := set.declarations.filter fun d => set.Needs roots d.name },
        (set.declarations.filter fun d => ¬ set.Needs roots d.name).map Declaration.name) := by
  simp only [prune, contains_reachable, decide_not]

theorem declarations_prune :
    (set.prune roots).1.declarations =
      set.declarations.filter fun d => set.Needs roots d.name := by
  rw [prune_eq]

@[simp] theorem enums_prune : (set.prune roots).1.enums = set.enums := rfl

@[simp] theorem referenced_prune : (set.prune roots).1.referenced = set.referenced := rfl

/-- Fewer roots need fewer names. -/
theorem Needs.mono (within : ∀ root ∈ fewer, root ∈ roots) (needed : set.Needs fewer name) :
    set.Needs roots name := by
  induction needed with
  | root member => exact .root (within _ member)
  | reference _ declared refers ih => exact ih.reference declared refers

/-! ### Pruned sets -/

/-- Of a needed name all declarations are kept, so the first one remains the first. -/
theorem declaration?_prune (needed : set.Needs roots name) :
    (set.prune roots).1.declaration? name = set.declaration? name := by
  rw [declaration?, declaration?, declarations_prune, List.find?_filter]
  congr 1
  funext d
  by_cases same : d.name = name
  · simp [same, needed]
  · simp [same]

/-- After pruning, the roots and any fewer of them need the same names as before. -/
theorem needs_prune (within : ∀ root ∈ fewer, root ∈ roots) :
    (set.prune roots).1.Needs fewer name ↔ set.Needs fewer name := by
  -- What is reached on the way is needed for the roots, so its first declaration was kept.
  constructor
  · intro needed
    induction needed with
    | root member => exact .root member
    | reference _ declared refers ih =>
      rw [declaration?_prune (ih.mono within)] at declared
      exact ih.reference declared refers
  · intro needed
    induction needed with
    | root member => exact .root member
    | reference earlier declared refers ih =>
      rw [← declaration?_prune (earlier.mono within)] at declared
      exact ih.reference declared refers

theorem prune_prune (within : ∀ root ∈ fewer, root ∈ roots) :
    ((set.prune roots).1.prune fewer).1 = (set.prune fewer).1 := by
  have both : ∀ d : Declaration,
      (decide ((set.prune roots).1.Needs fewer d.name) && decide (set.Needs roots d.name)) =
        decide (set.Needs fewer d.name) := by
    intro d
    by_cases needed : set.Needs fewer d.name
    · simp [needs_prune within, needed, needed.mono within]
    · simp [needs_prune within, needed]
  rw [prune_eq (set.prune roots).1, prune_eq set fewer]
  simp only [declarations_prune, List.filter_filter, both, enums_prune, referenced_prune]

/-- Nothing is dropped the second time. -/
theorem prune_again (set : DeclarationSet) (roots : NameSet) :
    (set.prune roots).1.prune roots = ((set.prune roots).1, []) := by
  have nothing : ((set.prune roots).1.prune roots).2 = [] := by
    rw [prune_eq (set.prune roots).1, List.map_eq_nil_iff, List.filter_eq_nil_iff]
    intro d kept
    rw [declarations_prune] at kept
    have needed : set.Needs roots d.name := by simpa using (List.mem_filter.mp kept).2
    simpa using (needs_prune fun _ => id).mpr needed
  exact Prod.ext (prune_prune fun _ => id) nothing

theorem prune_sublist (within : ∀ root ∈ fewer, root ∈ roots) :
    (set.prune fewer).1.declarations.Sublist (set.prune roots).1.declarations := by
  rw [declarations_prune, declarations_prune]
  exact List.monotone_filter_right _ fun d => by simpa using Needs.mono within

/-- More fuel does not reach more names: the walks from the roots end before theirs is used up. -/
theorem reachable_of_le (set : DeclarationSet) (roots : List String) {fuel : Nat}
    (enough : set.declarations.length + 2 ≤ fuel) :
    roots.foldl (walk set.referencesOf fuel) [] = set.reachable roots := by
  have support : ∀ x, set.referencesOf x ≠ [] → x ∈ set.declarations.map Declaration.name :=
    fun _ => referencesOf_support
  have step : ∀ visited node,
      unvisited (set.declarations.map Declaration.name) visited < set.declarations.length + 2 →
        walk set.referencesOf fuel visited node =
          walk set.referencesOf (set.declarations.length + 2) visited node :=
    fun _ _ fits => walk_of_le support fits enough
  refine foldl_walk_congr support step roots ?_
  rw [unvisited_nil, List.length_map]
  exact Nat.lt_add_of_pos_right Nat.two_pos

/-- Pruning keeps exactly the declarations of needed names in their order, returns the names of the
others, and touches neither the enums nor the referenced names. The loop that collects the needed
names has one end, and the walks that are bounded by fuel need no more of it. So more roots keep
more, a second time drops nothing, and roots that come down to fewer of them keep what the fewer
ones keep alone. -/
theorem prune_exact (set : DeclarationSet) (roots : NameSet) :
    set.prune roots =
      ({ set with declarations := set.declarations.filter fun d => set.Needs roots d.name },
        (set.declarations.filter fun d => ¬ set.Needs roots d.name).map Declaration.name) ∧
    (∃ reached : NameSet,
      (∀ other, Collects set.referencesOf .empty roots.toList.reverse other ↔ other = reached) ∧
      ∀ name, name ∈ reached ↔ set.Needs roots name) ∧
    (∀ fuel, set.declarations.length + 2 ≤ fuel →
      roots.toList.foldl (walk set.referencesOf fuel) [] = set.reachable roots.toList) ∧
    (∀ more : NameSet, (∀ root ∈ roots, root ∈ more) →
      (set.prune roots).1.declarations.Sublist (set.prune more).1.declarations) ∧
    (set.prune roots).1.prune roots = ((set.prune roots).1, []) ∧
    ∀ fewer : NameSet, (∀ root ∈ fewer, root ∈ roots) →
      ((set.prune roots).1.prune fewer).1 = (set.prune fewer).1 :=
  ⟨prune_eq set roots, exists_collected set roots, fun _ => reachable_of_le set roots.toList,
    fun _ => prune_sublist, prune_again set roots, fun _ => prune_prune⟩

/-! ### A cycle

An edge and its nodes refer to each other. There is a second declaration of the nodes, which does
not count, and one of the roots is declared nowhere. -/

namespace CyclicGraph

def refersTo (name : String) (targets : List String) : Declaration :=
  .record name (targets.map fun t => .field t t (.reference t false) true none) none

def graph : DeclarationSet where
  declarations := [refersTo "Node" ["Edge", "Label"], refersTo "Attic" ["Leaf"],
    refersTo "Edge" ["Node"], refersTo "Node" ["Leaf"], refersTo "Leaf" [],
    refersTo "Legacy" ["Leaf", "Legacy"]]
  enums := [⟨"Label", [], none⟩]
  referenced := .ofList ["Edge", "Label", "Leaf", "Legacy", "Node"]

def starts : NameSet := .ofList ["Edge", "Legacy", "Nowhere"]

def edgeStarts : NameSet := .ofList ["Edge", "Nowhere"]

end CyclicGraph

open CyclicGraph in
theorem cycle_prune_exact :
    (∀ root ∈ edgeStarts, root ∈ starts) ∧ (graph.prune starts).2 = ["Attic"] ∧
    (graph.prune edgeStarts).2 = ["Attic", "Leaf", "Legacy"] ∧
    (graph.prune edgeStarts).1.declarations.Sublist (graph.prune starts).1.declarations ∧
    ((graph.prune starts).1.prune edgeStarts).1 = (graph.prune edgeStarts).1 := by
  have within : ∀ root ∈ edgeStarts, root ∈ starts := by
    intro root member
    rw [edgeStarts, NameSet.mem_ofList] at member
    rw [starts, NameSet.mem_ofList]
    rcases List.mem_cons.mp member with rfl | member
    · exact List.mem_cons_self
    · obtain rfl := List.mem_singleton.mp member
      decide
  obtain ⟨-, -, -, monotone, -, -⟩ := prune_exact graph edgeStarts
  obtain ⟨-, -, -, -, -, later⟩ := prune_exact graph starts
  exact ⟨within, by decide +kernel, by decide +kernel, monotone starts within,
    later edgeStarts within⟩

end DeclarationSet
end SchemaTypes
