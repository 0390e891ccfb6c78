import SchemaTypes.Proofs.Resolve.Inclusion

/-!
# The search for a path and its stack

The search as it goes: it has no bound on its depth, shares what it visited between all branches,
and keeps the path to the node where it is on a stack. From every node it comes to an end, with a
path to the goal on the stack if there is one, and otherwise with the stack as it was.
-/
namespace SchemaTypes

/-- What a search leaves behind. -/
structure SearchEnd where
  found : Bool
  visited : List String
  stack : List String
deriving Repr, DecidableEq

/-- A search from the nodes in order, until one of them leads to the goal. A node is put on the
stack when the search comes to it, and taken off when the search goes back from it. -/
inductive Searches (edges : String → List String) (goal : String) :
    (visited stack nodes : List String) → SearchEnd → Prop
  | nil (visited stack : List String) :
    Searches edges goal visited stack [] ⟨false, visited, stack⟩
  | goal (visited stack rest : List String) :
    Searches edges goal visited stack (goal :: rest) ⟨true, visited, stack ++ [goal]⟩
  | known {visited stack rest : List String} {node : String} {result : SearchEnd} :
    node ≠ goal → node ∈ visited →
    Searches edges goal visited (stack ++ [node]).dropLast rest result →
    Searches edges goal visited stack (node :: rest) result
  | inside {visited stack rest : List String} {node : String} {result : SearchEnd} :
    node ≠ goal → node ∉ visited →
    Searches edges goal (node :: visited) (stack ++ [node]) (edges node) result →
    result.found = true → Searches edges goal visited stack (node :: rest) result
  | back {visited stack rest : List String} {node : String} {inner result : SearchEnd} :
    node ≠ goal → node ∉ visited →
    Searches edges goal (node :: visited) (stack ++ [node]) (edges node) inner →
    inner.found = false → Searches edges goal inner.visited inner.stack.dropLast rest result →
    Searches edges goal visited stack (node :: rest) result

variable {edges : String → List String} {goal node : String}
  {nodes visited stack next after : List String} {result other : SearchEnd}

namespace Searches

/-- A search has one end. -/
theorem unique (first : Searches edges goal visited stack next result)
    (second : Searches edges goal visited stack next other) : result = other := by
  induction first generalizing other with
  | nil visited stack =>
    cases second
    rfl
  | goal visited stack rest =>
    cases second with
    | goal => rfl
    | known different => exact absurd rfl different
    | inside different => exact absurd rfl different
    | back different => exact absurd rfl different
  | known different old _ ih =>
    cases second with
    | goal => exact absurd rfl different
    | known _ _ later => exact ih later
    | inside _ new => exact absurd old new
    | back _ new => exact absurd old new
  | inside different new _ found ih =>
    cases second with
    | goal => exact absurd rfl different
    | known _ old => exact absurd old new
    | inside _ _ inner => exact ih inner
    | back _ _ inner lost =>
      rw [ih inner, lost] at found
      cases found
  | back different new _ lost _ innerIh laterIh =>
    cases second with
    | goal => exact absurd rfl different
    | known _ old => exact absurd old new
    | inside _ _ inner found =>
      rw [innerIh inner, found] at lost
      cases lost
    | back _ _ inner _ later =>
      obtain rfl := innerIh inner
      exact laterIh later

/-- What a search does with its stack, and that it forgets no visit. No node comes on the stack a
second time: apart from the goal, those that are on it were visited when they were put there. -/
structure Keeps (goal : String) (visited stack : List String) (result : SearchEnd) : Prop where
  kept : visited ⊆ result.visited
  lost : result.found = false → result.stack = stack
  found : result.found = true → ∃ path, result.stack = stack ++ path ∧ path.Nodup ∧
    ∀ x ∈ path, x = goal ∨ x ∉ visited

theorem keeps (search : Searches edges goal visited stack next result) :
    Keeps goal visited stack result := by
  induction search with
  | nil visited stack => exact ⟨List.Subset.refl _, fun _ => rfl, nofun⟩
  | goal visited stack rest =>
    refine ⟨List.Subset.refl _, nofun, fun _ => ⟨[goal], rfl, List.nodup_singleton goal, ?_⟩⟩
    exact fun x member => Or.inl (List.mem_singleton.mp member)
  | known different old _ ih =>
    rwa [List.dropLast_concat] at ih
  | @inside visited stack rest node result different new _ found ih =>
    obtain ⟨kept, -, extended⟩ := ih
    refine ⟨List.Subset.trans (List.subset_cons_self _ _) kept, fun lost => ?_, fun _ => ?_⟩
    · rw [found] at lost
      cases lost
    · obtain ⟨path, onStack, simple, fresh⟩ := extended found
      have first : node ∉ path := by
        intro again
        rcases fresh node again with same | unvisited
        · exact different same
        · exact unvisited List.mem_cons_self
      refine ⟨node :: path, ?_, List.nodup_cons.mpr ⟨first, simple⟩, fun x member => ?_⟩
      · rw [onStack, List.append_assoc, List.singleton_append]
      · rcases List.mem_cons.mp member with rfl | later
        · exact Or.inr new
        · exact (fresh x later).imp_right (mt (List.mem_cons_of_mem node))
  | @back visited stack rest node inner result different new _ lost _ innerIh laterIh =>
    -- All that the lost search put on the stack is off again, and its own node is taken off now.
    have restored : inner.stack.dropLast = stack := by
      rw [innerIh.lost lost, List.dropLast_concat]
    rw [restored] at laterIh
    obtain ⟨kept, unchanged, extended⟩ := laterIh
    have earlier : visited ⊆ inner.visited :=
      List.Subset.trans (List.subset_cons_self _ _) innerIh.kept
    refine ⟨List.Subset.trans earlier kept, unchanged, fun found => ?_⟩
    obtain ⟨path, onStack, simple, fresh⟩ := extended found
    exact ⟨path, onStack, simple, fun x member => (fresh x member).imp_right (mt (@earlier x))⟩

end Searches

/-! ### The bounded search -/

/-- Inside a new node less fuel is needed, and none if the node has no edges. -/
theorem searches_inside (support : ∀ x, edges x ≠ [] → x ∈ nodes) {fuel : Nat}
    {path : Option (List String)} (enough : unvisited nodes visited < fuel + 1)
    (new : node ∉ visited)
    (inner : searchEach (searchPath edges goal fuel) (node :: visited) (edges node) = (path, after))
    (deeper : unvisited nodes (node :: visited) < fuel →
      Searches edges goal (node :: visited) stack (edges node)
        ⟨path.isSome, after, stack ++ path.getD []⟩) :
    Searches edges goal (node :: visited) stack (edges node)
      ⟨path.isSome, after, stack ++ path.getD []⟩ := by
  by_cases none : edges node = []
  · rw [none] at inner ⊢
    cases inner
    rw [Option.getD_none, List.append_nil]
    exact .nil (node :: visited) stack
  · have fewer := unvisited_cons_lt (support node none) new
    exact deeper (by omega)

/-- With more fuel than there are unvisited nodes with edges, the bounded search is a run of the one
without a bound. -/
theorem searches_of_searchEach (support : ∀ x, edges x ≠ [] → x ∈ nodes) {fuel : Nat}
    {path : Option (List String)} (enough : unvisited nodes visited < fuel)
    (ran : searchEach (searchPath edges goal fuel) visited next = (path, after)) :
    Searches edges goal visited stack next ⟨path.isSome, after, stack ++ path.getD []⟩ := by
  -- By induction on the fuel into the depth, and on the nodes that are left on each level.
  induction fuel generalizing visited stack next path after with
  | zero => exact absurd enough (Nat.not_lt_zero _)
  | succ fuel deeper =>
    induction next generalizing visited stack path after with
    | nil =>
      cases ran
      rw [Option.getD_none, List.append_nil]
      exact .nil visited stack
    | cons n rest ih =>
      rw [searchEach, searchPath] at ran
      by_cases same : n = goal
      · subst same
        rw [if_pos rfl] at ran
        cases ran
        exact .goal visited stack rest
      by_cases old : n ∈ visited
      · rw [if_neg same, if_pos old] at ran
        refine .known same old ?_
        rw [List.dropLast_concat]
        exact ih enough ran
      rw [if_neg same, if_neg old] at ran
      cases inner : searchEach (searchPath edges goal fuel) (n :: visited) (edges n) with
      | mk found later =>
        have run : Searches edges goal (n :: visited) (stack ++ [n]) (edges n)
            ⟨found.isSome, later, stack ++ [n] ++ found.getD []⟩ :=
          searches_inside support enough old inner fun less => deeper less inner
        rw [inner] at ran
        cases found with
        | some path =>
          cases ran
          rw [List.append_assoc] at run
          exact .inside same old run rfl
        | none =>
          have kept : visited ⊆ later :=
            List.Subset.trans (List.subset_cons_self _ _) run.keeps.kept
          refine .back same old run rfl ?_
          rw [Option.getD_none, List.append_nil, List.dropLast_concat]
          exact ih (Nat.lt_of_le_of_lt (unvisited_le_of_subset kept) enough) ran

theorem searchEach_singleton {search : List String → String → Option (List String) × List String} :
    searchEach search visited [node] = search visited node := by
  rw [searchEach]
  split
  next found => exact found.symm
  next lost => exact lost.symm

namespace SchemaTable

open Data

/-- The search along inclusions comes to an end on every table. -/
theorem exists_searches (table : SchemaTable) (start goal : String) (stack : List String) :
    ∃ visited, Searches table.inclusionEdges goal [] stack [start]
      ⟨(table.inclusionPath? start goal).isSome, visited,
        stack ++ (table.inclusionPath? start goal).getD []⟩ := by
  have support : ∀ x, table.inclusionEdges x ≠ [] → x ∈ Entries.keys table.schemas :=
    fun _ => inclusionEdges_support
  have enough : unvisited (Entries.keys table.schemas) [] < table.schemas.length + 2 := by
    simp [unvisited_nil, Entries.keys]
  exact ⟨_, searches_of_searchEach support enough searchEach_singleton⟩

/-- From every start the search comes to one end, whatever cycles are in the table. It finds the
goal exactly if the goal is reached along inclusions. Then it leaves a path to the goal without a
repeated node on top of the stack, the one that the bounded search finds, and otherwise the stack as
it was. -/
theorem inclusion_search_exact (table : SchemaTable) (start goal : String) (stack : List String) :
    ∃ result,
      (∀ other, Searches table.inclusionEdges goal [] stack [start] other ↔ other = result) ∧
      (result.found = true ↔ Reaches table.inclusionEdges start goal) ∧
      (result.found = true → ∃ path, result.stack = stack ++ path ∧
        IsPath table.inclusionEdges start goal path ∧ path.Nodup ∧
        table.inclusionPath? start goal = some path) ∧
      (result.found = false → result.stack = stack ∧ table.inclusionPath? start goal = none) := by
  obtain ⟨visited, search⟩ := exists_searches table start goal stack
  refine ⟨_, fun other => ⟨fun another => another.unique search, ?_⟩, ?_, fun found => ?_,
    fun lost => ?_⟩
  · rintro rfl
    exact search
  · rw [Option.isSome_iff_ne_none, ne_eq, inclusionPath?_eq_none_iff, not_not]
  · obtain ⟨path, isFound⟩ := Option.isSome_iff_exists.mp found
    obtain ⟨onStack, same, simple, -⟩ := search.keeps.found found
    obtain rfl : path = onStack := by
      rw [isFound, Option.getD_some] at same
      exact List.append_cancel_left same
    refine ⟨path, same, isPath_of_searchPath isFound, simple, isFound⟩
  · have nothing : table.inclusionPath? start goal = none := by
      simpa using lost
    exact ⟨search.keeps.lost lost, nothing⟩

/-! ### Toys

The search for the shop goes from a cat to an animal and back to the cat, leaves that cycle, and
finds the shop through the toy. -/

namespace Toys

def including (names : List String) : Schema :=
  .node {} none none (names.map fun name =>
    .node { reference := some (Document.Pointer.toSchema name) } none none [] [] []) [] []

def table : SchemaTable where
  schemas := [("Cat", including ["Animal", "Toy"]), ("Animal", including ["Cat"]),
    ("Toy", including ["Shop"]), ("Shop", including [])]
  names := []

example : table.inclusionPath? "Cat" "Shop" = some ["Cat", "Toy", "Shop"] ∧
    table.inclusionPath? "Toy" "Cat" = none := by
  decide +kernel

end Toys

end SchemaTable
end SchemaTypes
