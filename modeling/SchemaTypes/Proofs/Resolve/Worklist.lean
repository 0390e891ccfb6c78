import SchemaTypes.Proofs.Resolve.Search

/-!
# The worklist of reachable names

The loop that collects what is reached, as it goes: a set of the names that were reached, a list of
those that wait, and no bound on the number of steps. From any list it comes to one end, and then
the set has exactly what the list leads to along edges.
-/
namespace SchemaTypes

open Data

variable {edges : String → List String} {nodes waiting roots : List String}
  {reached result other : NameSet} {name x : String}

/-- The names on the edges of a name that are not reached yet, the last one first. -/
def unreached (edges : String → List String) (reached : NameSet) (name : String) : List String :=
  ((NameSet.ofList (edges name)).toList.filter fun x => !reached.contains x).reverse

@[simp] theorem mem_unreached :
    x ∈ unreached edges reached name ↔ x ∈ edges name ∧ x ∉ reached := by
  rw [unreached, List.mem_reverse, List.mem_filter, ← NameSet.mem_def, NameSet.mem_ofList]
  simp [← NameSet.contains_iff]

/-- The loop over the names that wait, the next one first, up to its end, where none is left. A name
that was reached before is passed over. What a new one leads to comes before all that waited
already. -/
inductive Collects (edges : String → List String) :
    (reached : NameSet) → (waiting : List String) → NameSet → Prop
  | done (reached : NameSet) : Collects edges reached [] reached
  | known {reached result : NameSet} {name : String} {rest : List String} :
    name ∈ reached → Collects edges reached rest result →
    Collects edges reached (name :: rest) result
  | new {reached result : NameSet} {name : String} {rest : List String} :
    name ∉ reached →
    Collects edges (reached.insert name)
      (unreached edges (reached.insert name) name ++ rest) result →
    Collects edges reached (name :: rest) result

namespace Collects

/-- The loop has one end. -/
theorem unique (first : Collects edges reached waiting result)
    (second : Collects edges reached waiting other) : result = other := by
  induction first with
  | done =>
    cases second
    rfl
  | known old _ ih =>
    cases second with
    | known _ later => exact ih later
    | new fresh _ => exact absurd old fresh
  | new fresh _ ih =>
    cases second with
    | known old _ => exact absurd old fresh
    | new _ later => exact ih later

/-- Nothing that was reached is lost, and nothing that waits is left out. -/
theorem keeps (run : Collects edges reached waiting result) :
    (∀ x ∈ reached, x ∈ result) ∧ ∀ x ∈ waiting, x ∈ result := by
  induction run with
  | done => simp
  | known old _ ih =>
    obtain ⟨kept, followed⟩ := ih
    exact ⟨kept, List.forall_mem_cons.mpr ⟨kept _ old, followed⟩⟩
  | new _ _ ih =>
    obtain ⟨kept, followed⟩ := ih
    refine ⟨fun x old => kept x (by simp [old]), List.forall_mem_cons.mpr ⟨kept _ (by simp), ?_⟩⟩
    intro x waits
    exact followed x (List.mem_append_right _ waits)

/-- The loop never leaves what is closed under the edges. -/
theorem within {Inside : String → Prop} (closed : ∀ x, Inside x → ∀ y ∈ edges x, Inside y)
    (run : Collects edges reached waiting result) (old : ∀ x ∈ reached, Inside x)
    (start : ∀ x ∈ waiting, Inside x) : ∀ x ∈ result, Inside x := by
  induction run with
  | done => exact old
  | known _ _ ih => exact ih old (List.forall_mem_cons.mp start).2
  | @new reached result name rest _ _ ih =>
    obtain ⟨here, later⟩ := List.forall_mem_cons.mp start
    apply ih
    · intro x member
      rcases NameSet.mem_insert.mp member with rfl | earlier
      · exact here
      · exact old x earlier
    · intro x waits
      rcases List.mem_append.mp waits with edge | earlier
      · exact closed name here x (mem_unreached.mp edge).1
      · exact later x earlier

/-- If all edges of reached names lead to names that are reached or wait, at the end they lead to
reached ones. -/
theorem closed (run : Collects edges reached waiting result)
    (covered : ∀ x ∈ reached, ∀ y ∈ edges x, y ∈ reached ∨ y ∈ waiting) :
    ∀ x ∈ result, ∀ y ∈ edges x, y ∈ result := by
  induction run with
  | done => simpa using covered
  | known old _ ih =>
    apply ih
    intro x member y edge
    rcases covered x member y edge with earlier | waits
    · exact Or.inl earlier
    · rcases List.mem_cons.mp waits with rfl | later
      · exact Or.inl old
      · exact Or.inr later
  | @new reached result name rest _ _ ih =>
    apply ih
    intro x member y edge
    by_cases found : y ∈ reached.insert name
    · exact Or.inl found
    right
    rcases NameSet.mem_insert.mp member with rfl | earlier
    · -- The edges of the new name are what is put on the list.
      simp [edge, found]
    · have waits := (covered x earlier y edge).resolve_left fun old => found (by simp [old])
      have different : y ≠ name := fun same => found (by simp [same])
      simp [(List.mem_cons.mp waits).resolve_left different]

end Collects

/-- The loop comes to an end, whatever cycles there are. -/
theorem exists_collects (support : ∀ x, edges x ≠ [] → x ∈ nodes) (reached : NameSet)
    (waiting : List String) : ∃ result, Collects edges reached waiting result := by
  suffices each : ∀ bound reached waiting, unvisited nodes reached.toList < bound →
      ∃ result, Collects edges reached waiting result from
    each _ reached waiting (Nat.lt_succ_self _)
  intro bound
  -- A new name with edges can make the list longer, but leaves fewer nodes to visit. The other
  -- steps make the list shorter and leave no more nodes than there were.
  induction bound with
  | zero => simp
  | succ bound fewer =>
    intro reached waiting enough
    induction waiting generalizing reached with
    | nil => exact ⟨reached, .done reached⟩
    | cons name rest shorter =>
      by_cases old : name ∈ reached
      · obtain ⟨result, run⟩ := shorter reached enough
        exact ⟨result, .known old run⟩
      have grows : name :: reached.toList ⊆ (reached.insert name).toList := by
        intro x member
        exact NameSet.mem_insert.mpr (List.mem_cons.mp member)
      have inserted : unvisited nodes (reached.insert name).toList ≤
          unvisited nodes (name :: reached.toList) := unvisited_le_of_subset grows
      by_cases none : edges name = []
      · have skipped : unreached edges (reached.insert name) name = [] := by
          simp [List.eq_nil_iff_forall_not_mem, none]
        have visited : unvisited nodes (name :: reached.toList) ≤ unvisited nodes reached.toList :=
          unvisited_le_of_subset (List.subset_cons_self name _)
        obtain ⟨result, run⟩ := shorter (reached.insert name) (by omega)
        exact ⟨result, .new old (by simpa [skipped] using run)⟩
      · have visited := unvisited_cons_lt (support name none) old
        obtain ⟨result, run⟩ := fewer (reached.insert name)
          (unreached edges (reached.insert name) name ++ rest) (by omega)
        exact ⟨result, .new old run⟩

/-- The loop over the roots has one end, where exactly what the roots reach was reached. -/
theorem collects_exact (support : ∀ x, edges x ≠ [] → x ∈ nodes) (roots : List String) :
    ∃ result, (∀ other, Collects edges .empty roots other ↔ other = result) ∧
      ∀ name, name ∈ result ↔ ∃ root ∈ roots, Reaches edges root name := by
  obtain ⟨result, run⟩ := exists_collects support .empty roots
  refine ⟨result, fun other => ⟨fun another => another.unique run, ?_⟩, fun name => ⟨?_, ?_⟩⟩
  · rintro rfl
    exact run
  · have closed : ∀ x, (∃ root ∈ roots, Reaches edges root x) →
        ∀ y ∈ edges x, ∃ root ∈ roots, Reaches edges root y := by
      rintro x ⟨root, listed, path⟩ y edge
      exact ⟨root, listed, path.tail edge⟩
    have start : ∀ x ∈ roots, ∃ root ∈ roots, Reaches edges root x :=
      fun x listed => ⟨x, listed, .refl⟩
    exact run.within closed (by simp) start name
  · rintro ⟨root, listed, path⟩
    have closed : ∀ x ∈ result.toList, edges x ⊆ result.toList := by
      intro x member y edge
      exact run.closed (by simp) x member y edge
    exact path.mem_of_closed closed (run.keeps.2 root listed)

end SchemaTypes
