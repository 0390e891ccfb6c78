/-!
# Name sets

Finite sets of names, kept in increasing order of their characters, so that equal sets are equal
values.
-/
namespace SchemaTypes.Data

/-- Puts a name into an increasing list, unless it is there. -/
def insertSorted (name : String) : List String → List String
  | [] => [name]
  | x :: xs =>
    if name < x then name :: x :: xs
    else if name = x then x :: xs
    else x :: insertSorted name xs

theorem mem_insertSorted {name y : String} {xs : List String} :
    y ∈ insertSorted name xs ↔ y = name ∨ y ∈ xs := by
  induction xs with
  | nil => simp [insertSorted]
  | cons x xs ih =>
    simp only [insertSorted]
    split
    · simp
    · split
      next equal => subst equal; simp
      next => simp only [List.mem_cons, ih]; grind

theorem sorted_insertSorted {name : String} {xs : List String} (sorted : xs.Pairwise (· < ·)) :
    (insertSorted name xs).Pairwise (· < ·) := by
  induction xs with
  | nil => simp [insertSorted]
  | cons x xs ih =>
    obtain ⟨below, rest⟩ := List.pairwise_cons.mp sorted
    simp only [insertSorted]
    split
    next less =>
      refine List.pairwise_cons.mpr ⟨fun y member => ?_, sorted⟩
      rcases List.mem_cons.mp member with rfl | later
      · exact less
      · exact String.lt_trans less (below y later)
    next notLess =>
      split
      next => exact sorted
      next different =>
        refine List.pairwise_cons.mpr ⟨fun y member => ?_, ih rest⟩
        rcases mem_insertSorted.mp member with rfl | later
        · by_cases above : x < y
          · exact above
          · exact absurd (String.le_antisymm above notLess) different
        · exact below y later

/-- A name that is there is not put in again. -/
theorem insertSorted_of_mem {name : String} {xs : List String} (sorted : xs.Pairwise (· < ·))
    (member : name ∈ xs) : insertSorted name xs = xs := by
  induction xs with
  | nil => cases member
  | cons x xs ih =>
    obtain ⟨below, rest⟩ := List.pairwise_cons.mp sorted
    rcases List.mem_cons.mp member with rfl | later
    · have irreflexive : ¬ name < name := String.lt_irrefl name
      rw [insertSorted, if_neg irreflexive, if_pos rfl]
    · -- The name stands behind `x`, so the search goes on to it.
      have above : x < name := below name later
      have notBelow : ¬ name < x := fun less => String.lt_irrefl x (String.lt_trans above less)
      have different : name ≠ x := by
        rintro rfl
        exact notBelow above
      rw [insertSorted, if_neg notBelow, if_neg different, ih rest later]

/-- A set of names, sorted and without repetition. -/
structure NameSet where
  toList : List String
  sorted : toList.Pairwise (· < ·)
deriving DecidableEq

namespace NameSet

def empty : NameSet := ⟨[], List.Pairwise.nil⟩

instance : Inhabited NameSet := ⟨empty⟩

instance : Membership String NameSet := ⟨fun set name => name ∈ set.toList⟩

def contains (set : NameSet) (name : String) : Bool :=
  set.toList.contains name

def insert (set : NameSet) (name : String) : NameSet :=
  ⟨insertSorted name set.toList, sorted_insertSorted set.sorted⟩

def insertMany (set : NameSet) (names : List String) : NameSet :=
  names.foldl insert set

def ofList (names : List String) : NameSet :=
  empty.insertMany names

theorem mem_def {set : NameSet} {name : String} : name ∈ set ↔ name ∈ set.toList :=
  Iff.rfl

@[simp] theorem not_mem_empty {name : String} : name ∉ empty := by
  simp [mem_def, empty]

@[simp] theorem mem_insert {set : NameSet} {name y : String} :
    y ∈ set.insert name ↔ y = name ∨ y ∈ set :=
  mem_insertSorted

theorem insert_of_mem {set : NameSet} {name : String} (member : name ∈ set) :
    set.insert name = set := by
  obtain ⟨names, sorted⟩ := set
  have same : insertSorted name names = names := insertSorted_of_mem sorted member
  simp only [insert, same]

@[simp] theorem mem_insertMany {set : NameSet} {names : List String} {y : String} :
    y ∈ set.insertMany names ↔ y ∈ names ∨ y ∈ set := by
  induction names generalizing set with
  | nil => simp [insertMany]
  | cons n ns ih =>
    have step : set.insertMany (n :: ns) = (set.insert n).insertMany ns := rfl
    rw [step, ih]
    simp only [mem_insert, List.mem_cons]
    grind

@[simp] theorem mem_ofList {names : List String} {y : String} : y ∈ ofList names ↔ y ∈ names := by
  simp [ofList]

@[simp] theorem contains_iff {set : NameSet} {name : String} :
    set.contains name = true ↔ name ∈ set := by
  simp [contains, mem_def]

end NameSet
end SchemaTypes.Data
