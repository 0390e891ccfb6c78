import SchemaTypes.Naming.NameTable
import Mathlib.Data.List.Nodup
import Mathlib.Data.List.Perm.Subperm
import Std.Data.String.ToNat

/-!
# Claims are given free names

A name table is finite, so among the numbered variants of a name one is free. The search for the
first of them needs no more tries than there are names in use.
-/
namespace SchemaTypes.Naming.NameTable

variable {table : NameTable} {base name other : String}

theorem contains_iff : table.contains name = true ↔ name ∈ table.taken := by
  simp [contains]

@[simp] theorem mem_reserve :
    other ∈ (table.reserve name).taken ↔ other = name ∨ other ∈ table.taken := by
  simp only [reserve, contains_iff]
  split
  next used =>
    constructor
    · exact Or.inr
    · rintro (rfl | member)
      · exact used
      · exact member
  next => simp

theorem mem_reserve_of_mem (name : String) (used : other ∈ table.taken) :
    other ∈ (table.reserve name).taken :=
  mem_reserve.mpr (Or.inr used)

theorem mem_reserveAll {names : List String} :
    other ∈ (names.foldl reserve table).taken ↔ other ∈ names ∨ other ∈ table.taken := by
  induction names generalizing table with
  | nil => simp
  | cons n ns ih =>
    simp only [List.foldl_cons, ih, mem_reserve, List.mem_cons]
    grind

theorem numbered_injective (base : String) :
    Function.Injective fun n : Nat => base ++ toString n := by
  intro m n equal
  exact Nat.repr_injective ((String.append_right_inj base).mp equal)

/-! ### Numbered variants -/

/-- The variants of a name with the numbers from 1 to `n`. -/
def variants (base : String) (n : Nat) : List String :=
  (List.range' 1 n).map fun k => base ++ toString k

@[simp] theorem length_variants (base : String) (n : Nat) : (variants base n).length = n := by
  simp [variants]

theorem mem_variants {n : Nat} :
    name ∈ variants base n ↔ ∃ k, 1 ≤ k ∧ k ≤ n ∧ base ++ toString k = name := by
  simp only [variants, List.mem_map, List.mem_range'_1, Nat.lt_one_add_iff, and_assoc]

theorem nodup_variants (base : String) (n : Nat) : (variants base n).Nodup :=
  List.Nodup.map (numbered_injective base) List.nodup_range'

/-! ### The search for a number -/

/-- The numbers that the search passes over belong to names in use. -/
theorem mem_taken_of_lt_freeSuffixFrom {n tries k : Nat} (start : n ≤ k)
    (below : k < table.freeSuffixFrom base n tries) : base ++ toString k ∈ table.taken := by
  induction tries generalizing n with
  | zero => exact absurd below (Nat.not_lt.mpr start)
  | succ tries ih =>
    simp only [freeSuffixFrom] at below
    split at below
    next used =>
      rcases Nat.eq_or_lt_of_le start with rfl | later
      · exact contains_iff.mp used
      · exact ih later below
    next => exact absurd below (Nat.not_lt.mpr start)

/-- A search that ends on a name in use has made all its tries. -/
theorem freeSuffixFrom_eq_of_mem_taken {n tries : Nat}
    (used : base ++ toString (table.freeSuffixFrom base n tries) ∈ table.taken) :
    table.freeSuffixFrom base n tries = n + tries := by
  induction tries generalizing n with
  | zero => rfl
  | succ tries ih =>
    simp only [freeSuffixFrom] at used ⊢
    split at used
    next first =>
      rw [if_pos first, ih used]
      omega
    next free => exact absurd (contains_iff.mpr used) free

/-- The variants up to the last number tried would be more than there are names in use. -/
theorem freeSuffix_not_mem : base ++ toString (table.freeSuffix base) ∉ table.taken := by
  intro used
  -- The search has given up, so every variant that it tried is in use.
  have last : table.freeSuffix base = 1 + table.taken.length := freeSuffixFrom_eq_of_mem_taken used
  have tried : variants base (table.taken.length + 1) ⊆ table.taken := by
    intro variant member
    obtain ⟨k, above, bound, rfl⟩ := mem_variants.mp member
    by_cases final : k = table.freeSuffix base
    · exact final ▸ used
    · have below : k < table.freeSuffix base := by omega
      exact mem_taken_of_lt_freeSuffixFrom above below
  have bound := ((nodup_variants base _).subperm tried).length_le
  rw [length_variants] at bound
  omega

/-- The name given to a claim was free. -/
theorem freeName_not_mem : table.freeName base ∉ table.taken := by
  simp only [freeName, contains_iff]
  split
  · exact freeSuffix_not_mem
  next free => exact free

/-- The name, or the name with a number. -/
def IsVariant (base name : String) : Prop :=
  name = base ∨ ∃ n : Nat, name = base ++ toString n

theorem isVariant_freeName : IsVariant base (table.freeName base) := by
  unfold freeName
  split
  · exact Or.inr ⟨table.freeSuffix base, rfl⟩
  · exact Or.inl rfl

/-- A claim takes the name that it gives, and no other. -/
@[simp] theorem mem_claim :
    other ∈ (table.claim base).2.taken ↔ other = (table.claim base).1 ∨ other ∈ table.taken :=
  mem_reserve

theorem mem_claim_of_mem (base : String) (used : other ∈ table.taken) :
    other ∈ (table.claim base).2.taken :=
  mem_claim.mpr (Or.inr used)

end SchemaTypes.Naming.NameTable
