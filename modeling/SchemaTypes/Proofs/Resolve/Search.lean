import SchemaTypes.Resolve.Inclusion
import SchemaTypes.Resolve.Prune
import Mathlib.Data.List.Basic
import Mathlib.Logic.Relation

/-!
# Depth-first walks are exhaustive

With more fuel than there are unvisited nodes with edges, a walk leaves no edge of a node that it
visits unexplored. A search that finds nothing is such a walk, and what a search finds is a path.
-/
namespace SchemaTypes

/-- A path along edges, possibly an empty one. -/
abbrev Reaches (edges : String → List String) : String → String → Prop :=
  Relation.ReflTransGen fun a b => b ∈ edges a

variable {edges : String → List String} {nodes visited : List String} {node goal : String}

/-- A set that is closed under the edges is never left. -/
theorem Reaches.mem_of_closed {start : String} {names : List String}
    (path : Reaches edges start goal) (closed : ∀ x ∈ names, edges x ⊆ names)
    (member : start ∈ names) : goal ∈ names := by
  induction path with
  | refl => exact member
  | tail _ edge ih => exact closed _ ih edge

/-! ### Unvisited nodes -/

/-- How many of the nodes are not visited. -/
def unvisited (nodes visited : List String) : Nat :=
  (nodes.filter fun x => x ∉ visited).length

theorem unvisited_nil (nodes : List String) : unvisited nodes [] = nodes.length := by
  simp [unvisited]

theorem unvisited_le_of_subset {more : List String} (subset : visited ⊆ more) :
    unvisited nodes more ≤ unvisited nodes visited := by
  refine (List.monotone_filter_right nodes fun x new => ?_).length_le
  simp only [decide_eq_true_eq] at new ⊢
  exact mt (@subset x) new

/-- A visit to a new node leaves fewer of them. -/
theorem unvisited_cons_lt (member : node ∈ nodes) (new : node ∉ visited) :
    unvisited nodes (node :: visited) < unvisited nodes visited := by
  have fewer : (nodes.filter fun x => x ∉ node :: visited) =
      (nodes.filter fun x => x ∉ visited).filter fun x => x ≠ node := by
    simp [List.filter_filter]
  rw [unvisited, fewer, unvisited, List.length_filter_lt_length_iff_exists]
  exact ⟨node, List.mem_filter.mpr ⟨member, by simpa using new⟩, by simp⟩

/-! ### Walks -/

/-- Nothing that was visited before is lost, and the edges of what is visited now lead to visited
nodes. -/
structure Explores (edges : String → List String) (visited after : List String) : Prop where
  kept : visited ⊆ after
  explored : ∀ x ∈ after, x ∉ visited → edges x ⊆ after

theorem Explores.refl (visited : List String) : Explores edges visited visited :=
  ⟨fun _ => id, fun _ member new => absurd member new⟩

theorem Explores.trans {a b c : List String} (first : Explores edges a b)
    (second : Explores edges b c) : Explores edges a c := by
  refine ⟨List.Subset.trans first.kept second.kept, fun x member new => ?_⟩
  by_cases earlier : x ∈ b
  · exact List.Subset.trans (first.explored x earlier new) second.kept
  · exact second.explored x member earlier

theorem foldl_walk_explores {fuel : Nat}
    (step : ∀ visited node, unvisited nodes visited < fuel →
      node ∈ walk edges fuel visited node ∧ Explores edges visited (walk edges fuel visited node))
    (next : List String) (enough : unvisited nodes visited < fuel) :
    next ⊆ next.foldl (walk edges fuel) visited ∧
      Explores edges visited (next.foldl (walk edges fuel) visited) := by
  induction next generalizing visited with
  | nil => exact ⟨List.nil_subset _, Explores.refl visited⟩
  | cons n rest ih =>
    obtain ⟨reached, first⟩ := step visited n enough
    obtain ⟨later, second⟩ := ih (Nat.lt_of_le_of_lt (unvisited_le_of_subset first.kept) enough)
    exact ⟨List.cons_subset.mpr ⟨second.kept reached, later⟩, first.trans second⟩

/-- A walk reaches its node and explores whatever it visits. -/
theorem walk_explores (support : ∀ x, edges x ≠ [] → x ∈ nodes) {fuel : Nat}
    (enough : unvisited nodes visited < fuel) :
    node ∈ walk edges fuel visited node ∧
      Explores edges visited (walk edges fuel visited node) := by
  induction fuel generalizing visited node with
  | zero => exact absurd enough (Nat.not_lt_zero _)
  | succ fuel ih =>
    rw [walk]
    split
    next old => exact ⟨old, Explores.refl visited⟩
    next new =>
      have visit : (edges node ⊆ (edges node).foldl (walk edges fuel) (node :: visited)) ∧
          Explores edges (node :: visited)
            ((edges node).foldl (walk edges fuel) (node :: visited)) := by
        -- A node without edges may be none of the nodes, but it needs no more fuel either.
        cases none : edges node with
        | nil => exact ⟨List.nil_subset _, Explores.refl _⟩
        | cons n rest =>
          have known : node ∈ nodes := support node (by simp [none])
          have fewer := unvisited_cons_lt known new
          exact foldl_walk_explores (fun _ _ => ih) _ (by omega)
      obtain ⟨followed, explores⟩ := visit
      refine ⟨explores.kept List.mem_cons_self,
        List.Subset.trans (List.subset_cons_self _ _) explores.kept, fun x member fresh => ?_⟩
      by_cases same : x = node
      · exact same ▸ followed
      · exact explores.explored x member (by simp [same, fresh])

/-- Walks from all of the roots visit a closed set. -/
theorem foldl_walk_closed (support : ∀ x, edges x ≠ [] → x ∈ nodes) {fuel : Nat}
    (enough : nodes.length < fuel) (roots : List String) :
    roots ⊆ roots.foldl (walk edges fuel) [] ∧
      ∀ x ∈ roots.foldl (walk edges fuel) [], edges x ⊆ roots.foldl (walk edges fuel) [] := by
  rw [← unvisited_nil nodes] at enough
  obtain ⟨reached, explores⟩ :=
    foldl_walk_explores (fun _ _ => walk_explores support) roots enough
  exact ⟨reached, fun x member => explores.explored x member List.not_mem_nil⟩

/-! ### Searches -/

/-- A search that finds nothing walks, and does not come to the goal. -/
theorem searchEach_eq_none {fuel : Nat} {after : List String}
    (step : ∀ visited node after, searchPath edges goal fuel visited node = (none, after) →
      after = walk edges fuel visited node ∧ (goal ∈ after → goal ∈ visited))
    {next : List String}
    (nothing : searchEach (searchPath edges goal fuel) visited next = (none, after)) :
    after = next.foldl (walk edges fuel) visited ∧ (goal ∈ after → goal ∈ visited) := by
  induction next generalizing visited with
  | nil =>
    cases nothing
    exact ⟨rfl, id⟩
  | cons n rest ih =>
    rw [searchEach] at nothing
    split at nothing
    · cases nothing
    next mid first =>
      obtain ⟨rfl, early⟩ := step _ _ _ first
      obtain ⟨rfl, late⟩ := ih nothing
      exact ⟨rfl, early ∘ late⟩

theorem searchPath_eq_none {fuel : Nat} {after : List String}
    (nothing : searchPath edges goal fuel visited node = (none, after)) :
    after = walk edges fuel visited node ∧ (goal ∈ after → goal ∈ visited) := by
  induction fuel generalizing visited node after with
  | zero =>
    cases nothing
    exact ⟨rfl, id⟩
  | succ fuel ih =>
    rw [searchPath] at nothing
    rw [walk]
    split at nothing
    · cases nothing
    next different =>
      split at nothing
      next old =>
        cases nothing
        exact ⟨(if_pos old).symm, id⟩
      next new =>
        split at nothing
        · cases nothing
        next late last =>
          cases nothing
          obtain ⟨rfl, avoided⟩ := searchEach_eq_none (fun _ _ _ => ih) last
          rw [if_neg new]
          -- The node is not the goal, so the goal was visited before the node.
          refine ⟨rfl, fun member => ?_⟩
          exact (List.mem_cons.mp (avoided member)).resolve_left (Ne.symm different)

/-- Where the search finds nothing, there is nothing to find. -/
theorem not_reaches_of_searchPath (support : ∀ x, edges x ≠ [] → x ∈ nodes) {fuel : Nat}
    (enough : nodes.length < fuel) (nothing : (searchPath edges goal fuel [] node).1 = none) :
    ¬ Reaches edges node goal := by
  intro path
  obtain ⟨walked, avoided⟩ := searchPath_eq_none (Prod.ext nothing rfl)
  rw [← unvisited_nil nodes] at enough
  obtain ⟨reached, explores⟩ : node ∈ walk edges fuel [] node ∧ _ := walk_explores support enough
  rw [← walked] at reached explores
  have closed := fun x member => explores.explored x member List.not_mem_nil
  exact List.not_mem_nil (avoided (path.mem_of_closed closed reached))

/-! ### Paths that are found -/

/-- The nodes of a path along edges, from its start to its goal. -/
structure IsPath (edges : String → List String) (start goal : String) (path : List String) :
    Prop where
  head : path.head? = some start
  last : path.getLast? = some goal
  chain : path.IsChain fun a b => b ∈ edges a

theorem IsPath.singleton (node : String) : IsPath edges node node [node] :=
  ⟨rfl, rfl, .singleton node⟩

theorem IsPath.cons {next : String} {path : List String} (edge : next ∈ edges node)
    (rest : IsPath edges next goal path) : IsPath edges node goal (node :: path) := by
  obtain ⟨head, last, chain⟩ := rest
  cases path with
  | nil => cases head
  | cons first later =>
    obtain rfl : first = next := Option.some.inj head
    refine ⟨rfl, ?_, List.isChain_cons_cons.mpr ⟨edge, chain⟩⟩
    rwa [List.getLast?_cons_cons]

theorem IsPath.reaches {start : String} {path : List String}
    (found : IsPath edges start goal path) : Reaches edges start goal := by
  obtain ⟨head, last, chain⟩ := found
  induction path generalizing start with
  | nil => cases head
  | cons first rest ih =>
    obtain rfl : first = start := Option.some.inj head
    cases rest with
    | nil =>
      obtain rfl : first = goal := Option.some.inj last
      exact Relation.ReflTransGen.refl
    | cons next later =>
      obtain ⟨edge, chain⟩ := List.isChain_cons_cons.mp chain
      rw [List.getLast?_cons_cons] at last
      exact (ih rfl last chain).head edge

theorem isPath_of_searchEach {fuel : Nat} {path : List String}
    (step : ∀ visited node path,
      (searchPath edges goal fuel visited node).1 = some path → IsPath edges node goal path)
    {next : List String}
    (found : (searchEach (searchPath edges goal fuel) visited next).1 = some path) :
    ∃ n ∈ next, IsPath edges n goal path := by
  induction next generalizing visited with
  | nil => cases found
  | cons n rest ih =>
    rw [searchEach] at found
    split at found
    next first _ success =>
      obtain rfl : first = path := Option.some.inj found
      exact ⟨n, List.mem_cons_self, step _ _ _ (congrArg Prod.fst success)⟩
    next =>
      obtain ⟨m, member, later⟩ := ih found
      exact ⟨m, List.mem_cons_of_mem _ member, later⟩

/-- What the search finds is a path. -/
theorem isPath_of_searchPath {fuel : Nat} {path : List String}
    (found : (searchPath edges goal fuel visited node).1 = some path) :
    IsPath edges node goal path := by
  induction fuel generalizing visited node path with
  | zero => cases found
  | succ fuel ih =>
    rw [searchPath] at found
    split at found
    next same =>
      obtain rfl : [node] = path := Option.some.inj found
      exact same ▸ IsPath.singleton node
    next =>
      split at found
      · cases found
      · split at found
        next later _ success =>
          obtain rfl : node :: later = path := Option.some.inj found
          obtain ⟨next, edge, rest⟩ :=
            isPath_of_searchEach (fun _ _ _ => ih) (congrArg Prod.fst success)
          exact rest.cons edge
        · cases found

end SchemaTypes
