import SchemaTypes.Proofs.Naming.NameTable

/-!
# Claims and reservations in any order

Whatever was claimed and reserved before, a claim is given the base or its first free numbered
variant, and that name only is in use from then on. So no name is given twice, and none that was
reserved, also where a base is spelled like a numbered variant of another one.
-/
namespace SchemaTypes.Naming.NameTable

variable {table : NameTable} {base name other : String} {m n : Nat}

/-! ### The search without a bound -/

/-- Where the search for a number ends that starts at the first of the two: it goes on as long as
the number makes a name that is in use. -/
inductive EndsAt (table : NameTable) (base : String) : Nat → Nat → Prop
  | free {n : Nat} : base ++ toString n ∉ table.taken → EndsAt table base n n
  | next {n m : Nat} : base ++ toString n ∈ table.taken → EndsAt table base (n + 1) m →
    EndsAt table base n m

/-- The search ends at the smallest number that makes a free name. -/
theorem endsAt_iff : EndsAt table base n m ↔
    n ≤ m ∧ base ++ toString m ∉ table.taken ∧
      ∀ k, n ≤ k → k < m → base ++ toString k ∈ table.taken := by
  constructor
  · intro search
    induction search with
    | free free => exact ⟨Nat.le_refl _, free, fun k above below => by omega⟩
    | @next n m used _ ih =>
      obtain ⟨later, free, passed⟩ := ih
      refine ⟨by omega, free, fun k above below => ?_⟩
      rcases Nat.eq_or_lt_of_le above with rfl | beyond
      · exact used
      · exact passed k beyond below
  · rintro ⟨start, free, passed⟩
    -- By induction on the numbers that are left to try.
    induction left : m - n generalizing n with
    | zero =>
      obtain rfl : n = m := by omega
      exact .free free
    | succ tries ih =>
      have used : base ++ toString n ∈ table.taken := passed n (Nat.le_refl n) (by omega)
      refine .next used (ih (by omega) (fun k above below => ?_) (by omega))
      exact passed k (by omega) below

theorem one_le_freeSuffix : 1 ≤ table.freeSuffix base := by
  unfold freeSuffix
  generalize table.taken.length = tries
  suffices later : ∀ n, n ≤ table.freeSuffixFrom base n tries from later 1
  intro n
  induction tries generalizing n with
  | zero => exact Nat.le_refl n
  | succ tries ih =>
    rw [freeSuffixFrom]
    split
    · exact Nat.le_of_succ_le (ih (n + 1))
    · exact Nat.le_refl n

/-- The bounded search comes to the end of the one without a bound. -/
theorem endsAt_freeSuffix : EndsAt table base 1 (table.freeSuffix base) :=
  endsAt_iff.mpr ⟨one_le_freeSuffix, freeSuffix_not_mem,
    fun _ above below => mem_taken_of_lt_freeSuffixFrom above below⟩

/-- The name and the variants with a smaller number are all in use. -/
theorem le_length_of_endsAt (used : base ∈ table.taken) (search : EndsAt table base 1 n) :
    n ≤ table.taken.length := by
  obtain ⟨start, -, passed⟩ := endsAt_iff.mp search
  have tried : base :: variants base (n - 1) ⊆ table.taken := by
    refine List.cons_subset.mpr ⟨used, fun variant member => ?_⟩
    obtain ⟨k, above, bound, rfl⟩ := mem_variants.mp member
    exact passed k above (by omega)
  have distinct : (base :: variants base (n - 1)).Nodup := by
    refine List.nodup_cons.mpr ⟨fun member => ?_, nodup_variants base (n - 1)⟩
    obtain ⟨k, -, -, same⟩ := mem_variants.mp member
    simp at same
  have bound := (distinct.subperm tried).length_le
  rw [List.length_cons, length_variants] at bound
  omega

/-! ### One claim -/

/-- A claim for a base is given a name, and leaves a table. -/
structure Claimed (table : NameTable) (base name : String) (after : NameTable) : Prop where
  /-- A free base is given to its claimant. -/
  first : base ∉ table.taken → name = base
  /-- The search for a number ends, within as many tries as there are names in use, at the smallest
  number from 1 on that makes a free name. -/
  numbered : base ∈ table.taken → ∃ n, EndsAt table base 1 n ∧ name = base ++ toString n ∧
    1 ≤ n ∧ n ≤ table.taken.length ∧ ∀ k, 1 ≤ k → k < n → base ++ toString k ∈ table.taken
  free : name ∉ table.taken
  /-- That name is taken, and no other. -/
  takes : ∀ other, other ∈ after.taken ↔ other = name ∨ other ∈ table.taken

theorem claimed_claim (table : NameTable) (base : String) :
    Claimed table base (table.claim base).1 (table.claim base).2 := by
  refine ⟨fun free => ?_, fun used => ?_, freeName_not_mem, fun _ => mem_claim⟩
  · exact if_neg (mt contains_iff.mp free)
  · have search : EndsAt table base 1 (table.freeSuffix base) := endsAt_freeSuffix
    obtain ⟨start, -, passed⟩ := endsAt_iff.mp search
    refine ⟨_, search, ?_, start, le_length_of_endsAt used search, passed⟩
    exact if_pos (contains_iff.mpr used)

/-! ### Calls in order -/

/-- A call on a name table. -/
inductive Call where
  | claim (base : String)
  | reserve (name : String)
deriving Repr, DecidableEq

/-- The names that the claims are given, in order, and the table after all of the calls. -/
def run (table : NameTable) : List Call → List String × NameTable
  | [] => ([], table)
  | .claim base :: calls =>
    let (name, table) := table.claim base
    let (names, table) := run table calls
    (name :: names, table)
  | .reserve name :: calls => run (table.reserve name) calls

theorem run_claim (table : NameTable) (base : String) (calls : List Call) :
    table.run (.claim base :: calls) =
      ((table.claim base).1 :: ((table.claim base).2.run calls).1,
        ((table.claim base).2.run calls).2) :=
  rfl

theorem run_append (table : NameTable) (before after : List Call) :
    table.run (before ++ after) =
      ((table.run before).1 ++ ((table.run before).2.run after).1,
        ((table.run before).2.run after).2) := by
  induction before generalizing table with
  | nil => rfl
  | cons call rest ih =>
    cases call with
    | claim base => rw [List.cons_append, run_claim, run_claim, ih, List.cons_append]
    | reserve name => exact ih (table.reserve name)

/-- What is in use after the calls: what they gave, what they reserved, and what was in use. -/
theorem mem_run {calls : List Call} : other ∈ (table.run calls).2.taken ↔
    other ∈ (table.run calls).1 ∨ .reserve other ∈ calls ∨ other ∈ table.taken := by
  induction calls generalizing table with
  | nil => simp [run]
  | cons call rest ih =>
    cases call with
    | claim base =>
      rw [run_claim, ih, mem_claim]
      simp only [List.mem_cons, reduceCtorEq, false_or]
      tauto
    | reserve name =>
      change other ∈ ((table.reserve name).run rest).2.taken ↔
        other ∈ ((table.reserve name).run rest).1 ∨ _
      rw [ih, mem_reserve]
      simp only [List.mem_cons, Call.reserve.injEq]
      tauto

/-- No name is given twice, nor one that was in use from the start. -/
theorem nodup_run (table : NameTable) (calls : List Call) :
    (table.run calls).1.Nodup ∧ ∀ name ∈ (table.run calls).1, name ∉ table.taken := by
  induction calls generalizing table with
  | nil => exact ⟨List.nodup_nil, fun _ member => nomatch member⟩
  | cons call rest ih =>
    cases call with
    | claim base =>
      obtain ⟨distinct, fresh⟩ := ih (table.claim base).2
      rw [run_claim]
      refine ⟨List.nodup_cons.mpr ⟨fun again => ?_, distinct⟩, fun name member => ?_⟩
      · -- The first claim has taken the name, so a later one is not given it.
        exact fresh _ again (mem_claim.mpr (Or.inl rfl))
      · rcases List.mem_cons.mp member with rfl | later
        · exact freeName_not_mem
        · exact fun used => fresh name later (mem_claim_of_mem base used)
    | reserve reserved =>
      obtain ⟨distinct, fresh⟩ := ih (table.reserve reserved)
      exact ⟨distinct, fun name member used => fresh name member (mem_reserve_of_mem reserved used)⟩

/-- In every sequence of calls, each claim is given its base or the first free variant of it, and
takes just that name. All names that are given differ from one another and from what was reserved
before. -/
theorem run_lawful (table : NameTable) (calls : List Call) :
    (table.run calls).1.Nodup ∧
      ∀ before base after, calls = before ++ .claim base :: after →
        ∃ name later, (table.run calls).1 = (table.run before).1 ++ name :: later ∧
          Claimed (table.run before).2 base name (table.run (before ++ [.claim base])).2 ∧
          ∀ reserved, .reserve reserved ∈ before → name ≠ reserved := by
  refine ⟨(nodup_run table calls).1, ?_⟩
  rintro before base after rfl
  have claimed := claimed_claim (table.run before).2 base
  refine ⟨_, _, by rw [run_append, run_claim], ?_, ?_⟩
  · rw [run_append]
    exact claimed
  · rintro reserved earlier rfl
    exact claimed.free (mem_run.mpr (Or.inr (Or.inl earlier)))

/-! ### Pets

A base that is spelled like a numbered variant of another one, and a reserved variant. -/

namespace Pets

def before : List Call :=
  [.claim "Pet1", .claim "Pet", .claim "Pet", .reserve "Pet3"]

def calls : List Call :=
  before ++ [.claim "Pet", .claim "Pet1"]

example : (run {} calls).1 = ["Pet1", "Pet", "Pet2", "Pet4", "Pet11"] := by decide +kernel

end Pets

theorem pets_run_lawful :
    Pets.calls = Pets.before ++ .claim "Pet" :: [.claim "Pet1"] ∧
      (run {} Pets.calls).1.Nodup ∧
      ∃ name later, (run {} Pets.calls).1 = (run {} Pets.before).1 ++ name :: later ∧
        Claimed (run {} Pets.before).2 "Pet" name (run {} (Pets.before ++ [.claim "Pet"])).2 ∧
        ∀ reserved, .reserve reserved ∈ Pets.before → name ≠ reserved := by
  obtain ⟨distinct, claims⟩ := run_lawful {} Pets.calls
  exact ⟨rfl, distinct, claims _ _ _ rfl⟩

end SchemaTypes.Naming.NameTable
