import SchemaTypes.Data.Entries
import Mathlib.Data.List.Nodup
import Mathlib.Data.List.Basic

/-!
# Entries as maps

Looking up agrees with being an entry as long as no key is repeated, and inserting keeps it so.
-/
namespace SchemaTypes.Data.Entries

variable {α : Type} {es : Entries α} {key other : String} {value : α}

theorem mem_keys : key ∈ keys es ↔ ∃ value, (key, value) ∈ es := by
  simp [keys]

@[simp] theorem keys_append (es fs : Entries α) : keys (es ++ fs) = keys es ++ keys fs :=
  List.map_append

@[simp] theorem keys_cons (e : String × α) (es : Entries α) : keys (e :: es) = e.1 :: keys es := rfl

@[simp] theorem keys_nil : keys ([] : Entries α) = [] := rfl

theorem contains_iff : es.contains key = true ↔ key ∈ keys es := by
  simp [contains, keys]

/-! ### Looking up -/

theorem get?_cons (e : String × α) :
    get? (e :: es) key = if e.1 = key then some e.2 else get? es key := by
  cases e with
  | mk k v =>
    simp only [get?, List.lookup_cons]
    by_cases same : k = key
    · simp [same]
    · simp [same, beq_false_of_ne (Ne.symm same)]

theorem mem_of_get? (found : get? es key = some value) : (key, value) ∈ es := by
  induction es with
  | nil => cases found
  | cons e rest ih =>
    rw [get?_cons] at found
    split at found
    next same =>
      cases same
      cases found
      exact List.mem_cons_self
    next => exact List.mem_cons_of_mem _ (ih found)

theorem get?_of_mem (distinct : (keys es).Nodup) (member : (key, value) ∈ es) :
    get? es key = some value := by
  induction es with
  | nil => cases member
  | cons e rest ih =>
    obtain ⟨first, later⟩ := List.nodup_cons.mp distinct
    rw [get?_cons]
    rcases List.mem_cons.mp member with rfl | tail
    · exact if_pos rfl
    · have different : e.1 ≠ key := by
        rintro rfl
        exact first (mem_keys.mpr ⟨value, tail⟩)
      rw [if_neg different]
      exact ih later tail

theorem exists_get? (member : key ∈ keys es) : ∃ value, get? es key = some value := by
  induction es with
  | nil => cases member
  | cons e rest ih =>
    rw [get?_cons]
    split
    · exact ⟨e.2, rfl⟩
    next different => exact ih ((List.mem_cons.mp member).resolve_left (Ne.symm different))

theorem get?_isSome_iff : (get? es key).isSome = true ↔ key ∈ keys es := by
  constructor
  · intro found
    obtain ⟨value, found⟩ := Option.isSome_iff_exists.mp found
    exact mem_keys.mpr ⟨value, mem_of_get? found⟩
  · intro member
    exact Option.isSome_iff_exists.mpr (exists_get? member)

theorem get?_eq_none_iff : get? es key = none ↔ key ∉ keys es := by
  rw [← get?_isSome_iff, Option.not_isSome_iff_eq_none]

theorem get?_map_snd {β : Type} (f : α → β) (es : Entries α) (key : String) :
    get? (es.map fun e => (e.1, f e.2)) key = (get? es key).map f := by
  induction es with
  | nil => rfl
  | cons e rest ih =>
    rw [List.map_cons, get?_cons, get?_cons]
    by_cases same : e.1 = key
    · rw [if_pos same, if_pos same, Option.map_some]
    · rw [if_neg same, if_neg same, ih]

/-! ### Inserting -/

theorem get?_insert_self (key : String) (value : α) (es : Entries α) :
    get? (insert key value es) key = some value := by
  induction es with
  | nil => simp [insert, get?_cons]
  | cons e rest ih =>
    simp only [insert]
    split
    next same => rw [get?_cons, if_pos same]
    next different => rw [get?_cons, if_neg different, ih]

/-- Inserting changes the value of no other key. -/
theorem get?_insert_of_ne (different : key ≠ other) :
    get? (insert key value es) other = get? es other := by
  induction es with
  | nil => rw [insert, get?_cons, if_neg different]
  | cons e rest ih =>
    simp only [insert]
    split
    next same =>
      subst same
      rw [get?_cons, get?_cons, if_neg different, if_neg different]
    next => rw [get?_cons, get?_cons, ih]

/-- A new key goes to the end. -/
theorem insert_of_not_mem (fresh : key ∉ keys es) : insert key value es = es ++ [(key, value)] := by
  induction es with
  | nil => rfl
  | cons e rest ih =>
    obtain ⟨different, later⟩ := List.ne_and_not_mem_of_not_mem_cons fresh
    simp only [insert, if_neg different.symm, ih later, List.cons_append]

/-- A known key stays in its place. -/
theorem keys_insert_of_mem (known : key ∈ keys es) : keys (insert key value es) = keys es := by
  induction es with
  | nil => cases known
  | cons e rest ih =>
    simp only [insert]
    split
    next same => rw [keys_cons, keys_cons, same]
    next different =>
      rw [keys_cons, keys_cons, ih ((List.mem_cons.mp known).resolve_left (Ne.symm different))]

theorem mem_keys_insert : other ∈ keys (insert key value es) ↔ other = key ∨ other ∈ keys es := by
  by_cases known : key ∈ keys es
  · rw [keys_insert_of_mem known]
    exact (or_iff_right_of_imp fun same => same ▸ known).symm
  · rw [insert_of_not_mem known, keys_append, List.mem_append, or_comm]
    simp

theorem mem_of_mem_insert {e : String × α} (member : e ∈ insert key value es) :
    e ∈ es ∨ e = (key, value) := by
  induction es with
  | nil => exact Or.inr (List.mem_singleton.mp member)
  | cons first rest ih =>
    simp only [insert] at member
    split at member
    next same =>
      rcases List.mem_cons.mp member with rfl | tail
      · exact Or.inr (same ▸ rfl)
      · exact Or.inl (List.mem_cons_of_mem _ tail)
    next =>
      rcases List.mem_cons.mp member with rfl | tail
      · exact Or.inl List.mem_cons_self
      · exact (ih tail).imp_left (List.mem_cons_of_mem _)

theorem mem_of_mem_ofList {e : String × α} {es : List (String × α)} (member : e ∈ ofList es) :
    e ∈ es := by
  suffices steps : ∀ acc : Entries α,
      e ∈ es.foldl (fun acc e => insert e.1 e.2 acc) acc → e ∈ acc ∨ e ∈ es from
    (steps [] member).resolve_left List.not_mem_nil
  clear member
  induction es with
  | nil => exact fun _ => Or.inl
  | cons first rest ih =>
    intro acc later
    rcases ih _ later with earlier | listed
    · rcases mem_of_mem_insert earlier with old | rfl
      · exact Or.inl old
      · exact Or.inr List.mem_cons_self
    · exact Or.inr (List.mem_cons_of_mem _ listed)

theorem mem_keys_ofList {es : List (String × α)} : key ∈ keys (ofList es) ↔ key ∈ keys es := by
  suffices steps : ∀ acc : Entries α,
      key ∈ keys (es.foldl (fun acc e => insert e.1 e.2 acc) acc) ↔
        key ∈ keys acc ∨ key ∈ keys es by
    rw [ofList, steps, keys_nil]
    exact or_iff_right List.not_mem_nil
  induction es with
  | nil => simp
  | cons e rest ih =>
    intro acc
    rw [List.foldl_cons, ih, mem_keys_insert, keys_cons, List.mem_cons]
    exact (or_congr_left or_comm).trans or_assoc

theorem nodup_keys_insert (distinct : (keys es).Nodup) : (keys (insert key value es)).Nodup := by
  by_cases known : key ∈ keys es
  · rwa [keys_insert_of_mem known]
  · rw [insert_of_not_mem known, keys_append, keys_cons, keys_nil, ← List.concat_eq_append]
    exact distinct.concat known

theorem nodup_keys_ofList (es : List (String × α)) : (keys (ofList es)).Nodup := by
  suffices kept : ∀ acc : Entries α, (keys acc).Nodup →
      (keys (es.foldl (fun acc e => insert e.1 e.2 acc) acc)).Nodup from kept [] List.nodup_nil
  induction es with
  | nil => exact fun _ distinct => distinct
  | cons e rest ih => exact fun acc distinct => ih _ (nodup_keys_insert distinct)

/-- Without a repeated key, a listing is taken as it is. -/
theorem ofList_of_nodup {es : List (String × α)} (distinct : (keys es).Nodup) :
    ofList es = es := by
  suffices steps : ∀ acc : Entries α, (keys acc ++ keys es).Nodup →
      es.foldl (fun acc e => insert e.1 e.2 acc) acc = acc ++ es from steps [] distinct
  clear distinct
  induction es with
  | nil => exact fun acc _ => (List.append_nil acc).symm
  | cons e rest ih =>
    intro acc distinct
    have fresh : e.1 ∉ keys acc := by
      rw [List.nodup_append] at distinct
      exact fun member => distinct.2.2 _ member _ List.mem_cons_self rfl
    have step : insert e.1 e.2 acc = acc ++ [e] := insert_of_not_mem fresh
    have later : (keys (acc ++ [e]) ++ keys rest).Nodup := by
      rwa [keys_append, List.append_assoc]
    rw [List.foldl_cons, step, ih _ later, List.append_assoc, List.singleton_append]

/-- The keys of a listing, each where it is listed first. -/
theorem keys_ofList (es : List (String × α)) : keys (ofList es) = (keys es).eraseDups := by
  suffices steps : ∀ acc : Entries α,
      keys (es.foldl (fun acc e => insert e.1 e.2 acc) acc) =
        keys acc ++ ((keys es).filter fun key => key ∉ keys acc).eraseDups by
    simpa [ofList] using steps []
  induction es with
  | nil => simp
  | cons e rest ih =>
    intro acc
    rw [List.foldl_cons, ih, keys_cons]
    by_cases known : e.1 ∈ keys acc
    · rw [keys_insert_of_mem known, List.filter_cons_of_neg (by simpa using known)]
    · -- The key goes to the end, and its later occurrences are dropped.
      rw [insert_of_not_mem known, keys_append, List.filter_cons_of_pos (by simpa using known),
        List.eraseDups_cons, List.filter_filter, List.append_assoc]
      simp only [keys_cons, keys_nil, List.mem_append, List.mem_singleton, not_or, Bool.decide_and,
        List.singleton_append]
      congr 3
      refine List.filter_congr fun key _ => ?_
      rw [Bool.and_comm]
      by_cases same : key = e.1 <;> simp [same]

end SchemaTypes.Data.Entries
