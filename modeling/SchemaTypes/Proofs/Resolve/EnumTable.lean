import SchemaTypes.Proofs.Data.Entries
import SchemaTypes.Proofs.Naming.NameTable
import SchemaTypes.Resolve.EnumTable

/-!
# Enum tables only grow

Every enum name is in use, and a new enum comes under a free name, or under one that its schema
holds. So no enum is ever replaced.
-/
namespace SchemaTypes.EnumTable

open Data Naming

variable {table : EnumTable} {taken : NameTable} {name request : String} {values : List String}

def names (table : EnumTable) : List String :=
  Entries.keys table.enums

/-- A table that fits the names in use. -/
structure Sound (table : EnumTable) (taken : NameTable) : Prop where
  keyed : ∀ e ∈ table.enums, e.2.name = e.1
  distinct : table.names.Nodup
  held : ∀ name ∈ table.names, name ∈ taken.taken
  /-- What a request was answered with is an enum. -/
  answered : ∀ a ∈ table.aliases, a.2 ∈ table.names

@[simp] theorem names_append (es : Entries EnumDeclaration) (e : EnumDeclaration)
    (aliases : Entries String) :
    names ⟨es ++ [(name, e)], aliases⟩ = Entries.keys es ++ [name] := by
  simp [names]

theorem get?_isSome_iff : (table.get? name).isSome = true ↔ name ∈ table.names :=
  Entries.get?_isSome_iff

theorem Sound.declarations_names (sound : table.Sound taken) :
    table.declarations.map EnumDeclaration.name = table.names := by
  rw [declarations, names, Entries.keys, List.map_map]
  exact List.map_congr_left fun e member => sound.keyed e member

theorem Sound.mono {later : NameTable} (sound : table.Sound taken)
    (more : ∀ n ∈ taken.taken, n ∈ later.taken) : table.Sound later :=
  ⟨sound.keyed, sound.distinct, fun n member => more n (sound.held n member), sound.answered⟩

/-- A new enum under a name in use may be added, and with it answers to requests. -/
theorem Sound.append (sound : table.Sound taken) {e : EnumDeclaration} {aliases : Entries String}
    (named : e.name = name) (fresh : name ∉ table.names) (held : name ∈ taken.taken)
    (answered : ∀ a ∈ aliases, a ∈ table.aliases ∨ a.2 = name) :
    Sound ⟨table.enums ++ [(name, e)], aliases⟩ taken := by
  refine ⟨fun entry member => ?_, ?_, fun n member => ?_, fun a member => ?_⟩
  · rcases List.mem_append.mp member with old | new
    · exact sound.keyed entry old
    · rw [List.mem_singleton.mp new]
      exact named
  · rw [names_append, ← List.concat_eq_append]
    exact sound.distinct.concat fresh
  · rw [names_append] at member
    rcases List.mem_append.mp member with old | new
    · exact sound.held n old
    · exact List.mem_singleton.mp new ▸ held
  · rw [names_append]
    rcases answered a member with old | new
    · exact List.mem_append_left _ (sound.answered a old)
    · exact List.mem_append_right _ (List.mem_singleton.mpr new)

/-! ### Requests -/

/-- A repeated request changes nothing, whatever its literals. -/
theorem synthesize_known {enum : String} (known : Entries.get? table.aliases request = some enum) :
    table.synthesize taken request values = (enum, table, taken) := by
  simp only [synthesize, known]

/-- A request is answered alike from then on. -/
theorem get?_aliases_synthesize (table : EnumTable) (taken : NameTable) (request : String)
    (values : List String) :
    Entries.get? (table.synthesize taken request values).2.1.aliases request =
      some (table.synthesize taken request values).1 := by
  cases found : Entries.get? table.aliases request with
  | some enum => rw [synthesize_known found, found]
  | none => simp only [synthesize, found, Entries.get?_insert_self]

/-- The first request adds an enum under a free variant of the name. -/
theorem synthesize_new (sound : table.Sound taken)
    (new : Entries.get? table.aliases request = none) :
    table.synthesize taken request values =
      (taken.freeName request,
        ⟨table.enums ++
            [(taken.freeName request, .ofLiterals (taken.freeName request) values none)],
          table.aliases ++ [(request, taken.freeName request)]⟩,
        (taken.claim request).2) := by
  have fresh : taken.freeName request ∉ table.names :=
    fun member => NameTable.freeName_not_mem (sound.held _ member)
  simp only [synthesize, new, NameTable.claim, Entries.insert_of_not_mem fresh,
    Entries.insert_of_not_mem (Entries.get?_eq_none_iff.mp new)]

theorem synthesize_sound (sound : table.Sound taken) (request : String) (values : List String) :
    (table.synthesize taken request values).2.1.Sound
      (table.synthesize taken request values).2.2 := by
  cases found : Entries.get? table.aliases request with
  | some enum => rwa [synthesize_known found]
  | none =>
    rw [synthesize_new sound found]
    -- Enums have names in use, and the name was free before the claim.
    have fresh : taken.freeName request ∉ table.names :=
      fun member => NameTable.freeName_not_mem (sound.held _ member)
    have later := sound.mono fun n => NameTable.mem_claim_of_mem request
    refine later.append rfl fresh (NameTable.mem_claim.mpr (Or.inl rfl)) ?_
    · intro a member
      rcases List.mem_append.mp member with old | new
      · exact Or.inl old
      · rw [List.mem_singleton.mp new]
        exact Or.inr rfl

/-- The answer to a request is an enum of the table after it. -/
theorem synthesize_mem (sound : table.Sound taken) (request : String) (values : List String) :
    (table.synthesize taken request values).1 ∈
      (table.synthesize taken request values).2.1.names := by
  cases found : Entries.get? table.aliases request with
  | some enum =>
    rw [synthesize_known found]
    exact sound.answered _ (Entries.mem_of_get? found)
  | none =>
    rw [synthesize_new sound found, names_append]
    exact List.mem_append_right _ List.mem_cons_self

/-! ### Owned enums -/

theorem declareOwned_known (known : name ∈ table.names) (description : Option String) :
    table.declareOwned name values description = table := by
  rw [declareOwned, if_pos (get?_isSome_iff.mpr known)]

theorem declareOwned_new (new : name ∉ table.names) (description : Option String) :
    table.declareOwned name values description =
      { table with enums := table.enums ++ [(name, .ofLiterals name values description)] } := by
  rw [declareOwned, if_neg (mt get?_isSome_iff.mp new), Entries.insert_of_not_mem new]

theorem declareOwned_mem (table : EnumTable) (name : String) (values : List String)
    (description : Option String) : name ∈ (table.declareOwned name values description).names := by
  by_cases known : name ∈ table.names
  · rwa [declareOwned_known known]
  · rw [declareOwned_new known, names_append]
    exact List.mem_append_right _ List.mem_cons_self

theorem declareOwned_sound (sound : table.Sound taken) (held : name ∈ taken.taken)
    (values : List String) (description : Option String) :
    (table.declareOwned name values description).Sound taken := by
  by_cases known : name ∈ table.names
  · rwa [declareOwned_known known]
  · rw [declareOwned_new known]
    exact sound.append rfl known held fun a => Or.inl

/-! ### Seeds -/

theorem empty_sound (taken : NameTable) : Sound {} taken :=
  ⟨by simp, List.nodup_nil, by simp [names], by simp⟩

theorem seeded_taken (enums : List EnumDeclaration) (taken : NameTable) :
    (seeded enums taken).2 = (enums.map EnumDeclaration.name).foldl NameTable.reserve taken := by
  suffices steps : ∀ state : EnumTable × NameTable, (enums.foldl seedStep state).2 =
      (enums.map EnumDeclaration.name).foldl NameTable.reserve state.2 from steps ({}, taken)
  induction enums with
  | nil => exact fun _ => rfl
  | cons e rest ih => exact fun state => ih (seedStep state e)

/-- A seed may repeat a name, and then the last enum of that name counts. -/
theorem seedStep_sound (sound : table.Sound taken) (e : EnumDeclaration) :
    (seedStep (table, taken) e).1.Sound (seedStep (table, taken) e).2 := by
  refine ⟨fun entry member => ?_, Entries.nodup_keys_insert sound.distinct, fun n member => ?_,
    fun a member => ?_⟩
  · rcases Entries.mem_of_mem_insert member with old | rfl
    · exact sound.keyed entry old
    · rfl
  · rcases Entries.mem_keys_insert.mp member with rfl | old
    · exact NameTable.mem_reserve.mpr (Or.inl rfl)
    · exact NameTable.mem_reserve_of_mem _ (sound.held n old)
  · rcases Entries.mem_of_mem_insert member with old | rfl
    · exact Entries.mem_keys_insert.mpr (Or.inr (sound.answered a old))
    · exact Entries.mem_keys_insert.mpr (Or.inl rfl)

theorem seeded_sound (enums : List EnumDeclaration) (taken : NameTable) :
    (seeded enums taken).1.Sound (seeded enums taken).2 := by
  suffices steps : ∀ state : EnumTable × NameTable, state.1.Sound state.2 →
      (enums.foldl seedStep state).1.Sound (enums.foldl seedStep state).2 from
    steps ({}, taken) (empty_sound taken)
  induction enums with
  | nil => exact fun _ sound => sound
  | cons e rest ih => exact fun state sound => ih (seedStep state e) (seedStep_sound sound e)

/-- The enums of a seed are those of the table. -/
theorem mem_names_seeded {enums : List EnumDeclaration} :
    name ∈ (seeded enums taken).1.names ↔ name ∈ enums.map EnumDeclaration.name := by
  suffices steps : ∀ state : EnumTable × NameTable, name ∈ (enums.foldl seedStep state).1.names ↔
      name ∈ state.1.names ∨ name ∈ enums.map EnumDeclaration.name by
    rw [seeded, steps]
    simp [names]
  induction enums with
  | nil => simp
  | cons e rest ih =>
    intro state
    have step : name ∈ (seedStep state e).1.names ↔ name = e.name ∨ name ∈ state.1.names :=
      Entries.mem_keys_insert
    rw [List.foldl_cons, ih, step, List.map_cons, List.mem_cons]
    exact (or_congr_left or_comm).trans or_assoc

/-- A seeded table answers the requests for the names of its enums with these. -/
theorem get?_aliases_seeded {enums : List EnumDeclaration} (taken : NameTable) (request : String) :
    Entries.get? (seeded enums taken).1.aliases request =
      if request ∈ enums.map EnumDeclaration.name then some request else none := by
  suffices steps : ∀ state : EnumTable × NameTable,
      Entries.get? (enums.foldl seedStep state).1.aliases request =
        if request ∈ enums.map EnumDeclaration.name then some request
        else Entries.get? state.1.aliases request from steps ({}, taken)
  induction enums with
  | nil => simp
  | cons e rest ih =>
    intro state
    rw [List.foldl_cons, ih, List.map_cons]
    by_cases later : request ∈ rest.map EnumDeclaration.name
    · rw [if_pos later, if_pos (List.mem_cons_of_mem _ later)]
    · rw [if_neg later]
      by_cases same : e.name = request
      · rw [if_pos (same ▸ List.mem_cons_self), ← same]
        exact Entries.get?_insert_self ..
      · rw [if_neg (List.not_mem_cons_of_ne_of_not_mem (Ne.symm same) later)]
        exact Entries.get?_insert_of_ne same

/-- Seeding puts enums with new names behind those of a table, in order. -/
theorem seeded_enums {enums : List EnumDeclaration}
    (distinct : (enums.map EnumDeclaration.name).Nodup) (taken : NameTable) :
    (seeded enums taken).1.enums = enums.map fun e => (e.name, e) := by
  suffices steps : ∀ state : EnumTable × NameTable,
      (state.1.names ++ enums.map EnumDeclaration.name).Nodup →
      (enums.foldl seedStep state).1.enums = state.1.enums ++ enums.map fun e => (e.name, e) by
    exact steps ({}, taken) (by simpa [names] using distinct)
  clear distinct
  induction enums with
  | nil => simp
  | cons e rest ih =>
    intro state distinct
    have fresh : e.name ∉ state.1.names := by
      rw [List.nodup_append] at distinct
      exact fun member => distinct.2.2 _ member _ List.mem_cons_self rfl
    have step : (seedStep state e).1.enums = state.1.enums ++ [(e.name, e)] :=
      Entries.insert_of_not_mem fresh
    have later : ((seedStep state e).1.names ++ rest.map EnumDeclaration.name).Nodup := by
      rw [names, step]
      simpa [names] using distinct
    rw [List.foldl_cons, ih _ later, step]
    simp

end SchemaTypes.EnumTable
