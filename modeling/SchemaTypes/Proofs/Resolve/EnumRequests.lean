import SchemaTypes.Proofs.Resolve.Reseeding

/-!
# Requests for enums

An enum table shares the names in use with all else that claims names. Whatever is requested,
declared for schemas, claimed and reserved, and in whatever order: enums are only added, each at the
end, and the enum that a request is answered with stays the answer to that request and to no other.
-/
namespace SchemaTypes

open Data Naming

namespace EnumTable

/-- What is done to an enum table or to the names in use. -/
inductive Operation where
  | request (name : String) (values : List String)
  /-- Declares the enum of a schema, under the name of the schema. -/
  | own (name : String) (values : List String) (description : Option String)
  | claim (base : String)
  | reserve (name : String)

/-- An operation on an enum table and the names in use. An enum of a schema comes under a name that
is in use. -/
inductive Step : EnumTable × NameTable → Operation → EnumTable × NameTable → Prop
  | request (table : EnumTable) (taken : NameTable) (name : String) (values : List String) :
    Step (table, taken) (.request name values) (table.synthesize taken name values).2
  | own (table : EnumTable) {taken : NameTable} {name : String} (values : List String)
    (description : Option String) : name ∈ taken.taken →
    Step (table, taken) (.own name values description)
      (table.declareOwned name values description, taken)
  | claim (table : EnumTable) (taken : NameTable) (base : String) :
    Step (table, taken) (.claim base) (table, (taken.claim base).2)
  | reserve (table : EnumTable) (taken : NameTable) (name : String) :
    Step (table, taken) (.reserve name) (table, taken.reserve name)

/-- Operations in order. -/
inductive Run : EnumTable × NameTable → List Operation → EnumTable × NameTable → Prop
  | nil (s : EnumTable × NameTable) : Run s [] s
  | cons {s mid t : EnumTable × NameTable} {op : Operation} {ops : List Operation} :
    Step s op mid → Run mid ops t → Run s (op :: ops) t

variable {s t : EnumTable × NameTable} {op : Operation} {ops : List Operation}
  {name request : String}

/-! ### What a step keeps -/

/-- The table fits the names in use, and different requests have different answers. -/
structure Lawful (s : EnumTable × NameTable) : Prop where
  sound : s.1.Sound s.2
  separate : ∀ p q name, Entries.get? s.1.aliases p = some name →
    Entries.get? s.1.aliases q = some name → p = q

theorem Step.sound (step : Step s op t) (sound : s.1.Sound s.2) : t.1.Sound t.2 := by
  cases step with
  | request table taken name values => exact synthesize_sound sound name values
  | own table values description held => exact declareOwned_sound sound held values description
  | claim table taken base => exact sound.mono fun n => NameTable.mem_claim_of_mem base
  | reserve table taken name => exact sound.mono fun n => NameTable.mem_reserve_of_mem name

/-- A step leaves the enums as they are, and adds one at most. -/
theorem Step.appends (step : Step s op t) (sound : s.1.Sound s.2) :
    ∃ new, t.1.enums = s.1.enums ++ new ∧ new.length ≤ 1 := by
  cases step with
  | request table taken name values =>
    cases found : Entries.get? table.aliases name with
    | some enum =>
      rw [synthesize_known found]
      exact ⟨[], by simp⟩
    | none =>
      rw [synthesize_new sound found]
      exact ⟨_, rfl, Nat.le_refl 1⟩
  | @own table taken name values description held =>
    by_cases known : name ∈ table.names
    · rw [declareOwned_known known]
      exact ⟨[], by simp⟩
    · rw [declareOwned_new known]
      exact ⟨_, rfl, Nat.le_refl 1⟩
  | claim | reserve => exact ⟨[], by simp⟩

/-- Only a request gives an answer, to itself and under a name that was free. -/
theorem Step.answer_cases (step : Step s op t)
    (answered : Entries.get? t.1.aliases request = some name) :
    Entries.get? s.1.aliases request = some name ∨
      name ∉ s.2.taken ∧ ∃ values, op = .request request values := by
  cases step with
  | request table taken other values =>
    cases found : Entries.get? table.aliases other with
    | some enum =>
      rw [synthesize_known found] at answered
      exact Or.inl answered
    | none =>
      simp only [synthesize, found] at answered
      by_cases same : other = request
      · subst same
        rw [Entries.get?_insert_self] at answered
        obtain rfl : (taken.claim other).1 = name := Option.some.inj answered
        exact Or.inr ⟨NameTable.freeName_not_mem, values, rfl⟩
      · rw [Entries.get?_insert_of_ne same] at answered
        exact Or.inl answered
  | own table values description held =>
    unfold declareOwned at answered
    split at answered <;> exact Or.inl answered
  | claim | reserve => exact Or.inl answered

theorem Step.answer_kept (step : Step s op t)
    (answered : Entries.get? s.1.aliases request = some name) :
    Entries.get? t.1.aliases request = some name := by
  cases step with
  | request table taken other values =>
    by_cases same : other = request
    · subst same
      rwa [synthesize_known answered]
    · simp only [synthesize]
      split
      · exact answered
      · exact (Entries.get?_insert_of_ne same).trans answered
  | own table values description held =>
    unfold declareOwned
    split <;> exact answered
  | claim | reserve => exact answered

theorem Step.lawful (step : Step s op t) (lawful : Lawful s) : Lawful t := by
  refine ⟨step.sound lawful.sound, fun p q name first second => ?_⟩
  have used {request : String} (answered : Entries.get? s.1.aliases request = some name) :
      name ∈ s.2.taken :=
    lawful.sound.held name (lawful.sound.answered _ (Entries.mem_of_get? answered))
  -- An old answer has a name in use, so the new one is not the same.
  rcases step.answer_cases first with old | ⟨free, values, rfl⟩
  · rcases step.answer_cases second with older | ⟨free, -⟩
    · exact lawful.separate p q name old older
    · exact absurd (used old) free
  · rcases step.answer_cases second with old | ⟨-, others, same⟩
    · exact absurd (used old) free
    · injection same

/-! ### What a run keeps -/

theorem Run.lawful (run : Run s ops t) (lawful : Lawful s) : Lawful t := by
  induction run with
  | nil => exact lawful
  | cons step _ ih => exact ih (step.lawful lawful)

theorem Run.appends (run : Run s ops t) (sound : s.1.Sound s.2) :
    ∃ new, t.1.enums = s.1.enums ++ new ∧ new.length ≤ ops.length := by
  induction run with
  | nil => exact ⟨[], by simp⟩
  | cons step _ ih =>
    obtain ⟨new, first, one⟩ := step.appends sound
    obtain ⟨more, rest, bound⟩ := ih (step.sound sound)
    refine ⟨new ++ more, by rw [rest, first, List.append_assoc], ?_⟩
    rw [List.length_append, List.length_cons]
    omega

theorem Run.answer_kept (run : Run s ops t)
    (answered : Entries.get? s.1.aliases request = some name) :
    Entries.get? t.1.aliases request = some name := by
  induction run with
  | nil => exact answered
  | cons step _ ih => exact ih (step.answer_kept answered)

/-- What a name finds is the same from then on. -/
theorem Run.get?_kept (run : Run s ops t) (sound : s.1.Sound s.2) {e : EnumDeclaration}
    (found : s.1.get? name = some e) : t.1.get? name = some e := by
  obtain ⟨new, appended, -⟩ := run.appends sound
  rw [EnumTable.get?, Entries.get?] at found ⊢
  rw [appended, List.lookup_append, found, Option.some_or]

/-! ### Starts -/

theorem lawful_seeded (seed : List EnumDeclaration) (taken : NameTable) :
    Lawful (seeded seed taken) := by
  refine ⟨seeded_sound seed taken, fun p q name first second => ?_⟩
  -- Each enum of the seed answers the request for its own name.
  rw [get?_aliases_seeded] at first second
  split at first
  · split at second
    · cases first
      cases second
      rfl
    · cases second
  · cases first

/-- A name of the table finds an enum of that name. -/
theorem Sound.exists_get? {table : EnumTable} {taken : NameTable} (sound : table.Sound taken)
    (declared : name ∈ table.names) : ∃ e, table.get? name = some e ∧ e.name = name := by
  obtain ⟨e, found⟩ := Entries.exists_get? declared
  exact ⟨e, found, sound.keyed _ (Entries.mem_of_get? found)⟩

/-- How the tables stand after operations, where the enum table started with the seed. -/
structure AppendOnly (seed : List EnumDeclaration) (ops : List Operation)
    (s : EnumTable × NameTable) : Prop where
  /-- The seed is still there, in front and as it was. -/
  seeded : ∃ new, s.1.declarations = seed ++ new ∧ new.length ≤ ops.length
  /-- The next step, too, leaves all enums as they are and adds one at most. -/
  appends : ∀ op t, Step s op t → ∃ new, t.1.enums = s.1.enums ++ new ∧ new.length ≤ 1
  held : ∀ e ∈ s.1.declarations, e.name ∈ s.2.taken
  /-- The enum of a schema is found under the name of the schema. -/
  owned : ∀ name values description, name ∈ s.2.taken →
    ∃ e, (s.1.declareOwned name values description).get? name = some e ∧ e.name = name
  /-- The answer to a request names an enum. -/
  answered : ∀ q values,
    ∃ e, (s.1.synthesize s.2 q values).2.1.get? (s.1.synthesize s.2 q values).1 = some e ∧
      e.name = (s.1.synthesize s.2 q values).1
  /-- Whatever comes in between, the same request finds the same enum and changes nothing. -/
  repeated : ∀ q values later t, Run (s.1.synthesize s.2 q values).2 later t → ∀ others,
    t.1.synthesize t.2 q others = ((s.1.synthesize s.2 q values).1, t) ∧
      t.1.get? (s.1.synthesize s.2 q values).1 =
        (s.1.synthesize s.2 q values).2.1.get? (s.1.synthesize s.2 q values).1
  /-- No other request is answered with that enum. -/
  separate : ∀ q values later t, Run (s.1.synthesize s.2 q values).2 later t → ∀ p, p ≠ q →
    ∀ others, (t.1.synthesize t.2 p others).1 ≠ (s.1.synthesize s.2 q values).1

/-- From a seed with distinct names, and so from nothing as well, operations only add enums, and
every request has an enum of its own. -/
theorem appendOnly_of_run {seed : List EnumDeclaration} {taken : NameTable}
    (distinct : (seed.map EnumDeclaration.name).Nodup) (run : Run (seeded seed taken) ops s) :
    AppendOnly seed ops s := by
  have lawful : Lawful s := run.lawful (lawful_seeded seed taken)
  have sound : s.1.Sound s.2 := lawful.sound
  have answer q values : Step s (.request q values) (s.1.synthesize s.2 q values).2 :=
    .request s.1 s.2 q values
  have found q values := (synthesize_sound sound q values).exists_get?
    (synthesize_mem sound q values)
  -- From its first answer on, a request is a known one.
  have known {q values later t} (rest : Run (s.1.synthesize s.2 q values).2 later t) :
      Entries.get? t.1.aliases q = some (s.1.synthesize s.2 q values).1 :=
    rest.answer_kept (get?_aliases_synthesize s.1 s.2 q values)
  refine ⟨?_, fun op t step => step.appends sound, fun e member => ?_, ?_, found, ?_, ?_⟩
  · obtain ⟨new, appended, bound⟩ := run.appends (seeded_sound seed taken)
    refine ⟨new.map Prod.snd, ?_, by rwa [List.length_map]⟩
    rw [declarations, appended, seeded_enums distinct, List.map_append, List.map_map]
    exact congrArg (· ++ _) (List.map_id seed)
  · refine sound.held e.name ?_
    rw [← sound.declarations_names]
    exact List.mem_map_of_mem member
  · intro name values description held
    exact (declareOwned_sound sound held values description).exists_get?
      (declareOwned_mem s.1 name values description)
  · intro q values later t rest others
    obtain ⟨e, declared, -⟩ := found q values
    exact ⟨synthesize_known (known rest),
      (rest.get?_kept ((answer q values).sound sound) declared).trans declared.symm⟩
  · intro q values later t rest p different others same
    -- The two answers stand side by side once the other request has been made.
    have lawfulThen : Lawful (t.1.synthesize t.2 p others).2 :=
      (Step.request t.1 t.2 p others).lawful (rest.lawful ((answer q values).lawful lawful))
    refine different (lawfulThen.separate p q _ (get?_aliases_synthesize t.1 t.2 p others) ?_)
    rw [same]
    exact (Step.request t.1 t.2 p others).answer_kept (known rest)

/-! ### A kiosk with a seed

The schema `Pet` has an enum of its own, and a property asks for an enum of that name. -/

namespace Kiosk

def seed : List EnumDeclaration :=
  [.ofLiterals "PetTag" ["cat", "dog"] none]

def operations : List Operation :=
  [.reserve "Pet", .request "PetTag" ["cat"], .claim "PetTag", .own "Pet" ["small"] none,
    .request "Pet" ["big"]]

def last : EnumTable × NameTable :=
  (⟨[("PetTag", .ofLiterals "PetTag" ["cat", "dog"] none), ("Pet", .ofLiterals "Pet" ["small"] none),
      ("Pet1", .ofLiterals "Pet1" ["big"] none)],
    [("PetTag", "PetTag"), ("Pet", "Pet1")]⟩, ⟨["Pet1", "PetTag1", "Pet", "PetTag"]⟩)

theorem run : Run (seeded seed {}) operations last :=
  .cons (.reserve ..) (.cons (.request ..) (.cons (.claim ..)
    (.cons (.own _ _ _ (by decide +kernel)) (.cons (.request ..) (.nil last)))))

end Kiosk

theorem kiosk_appendOnly : (Kiosk.seed.map EnumDeclaration.name).Nodup ∧
    Run (seeded Kiosk.seed {}) Kiosk.operations Kiosk.last ∧
    AppendOnly Kiosk.seed Kiosk.operations Kiosk.last :=
  ⟨by decide, Kiosk.run, appendOnly_of_run (by decide) Kiosk.run⟩

end EnumTable

/-! ### Passes -/

open EnumTable ResolveState

/-- The effects of a resolution are such operations, and references are none. -/
theorem ResolveState.exists_run_perform {es : List Effect} (s : ResolveState)
    (held : ∀ name values description, .own name values description ∈ es →
      name ∈ s.taken.taken) :
    ∃ ops, Run (s.enums, s.taken) ops ((s.perform es).enums, (s.perform es).taken) := by
  induction es generalizing s with
  | nil => exact ⟨[], .nil _⟩
  | cons e rest ih =>
    obtain ⟨ops, later⟩ := ih (e.apply s) fun name values description listed =>
      mem_taken_apply e (held name values description (List.mem_cons_of_mem _ listed))
    cases e with
    | refer => exact ⟨ops, later⟩
    | request q values => exact ⟨_, .cons (.request s.enums s.taken q values) later⟩
    | own name values description =>
      have used := held name values description List.mem_cons_self
      exact ⟨_, .cons (.own s.enums values description used) later⟩

/-- A pass takes only such steps, from the table of its seed on. -/
theorem Pass.exists_run_final {pass : Pass} {set : DeclarationSet}
    (fits : pass.table.Fits pass.taken) (finished : pass.run = .ok set) :
    ∃ ops, Run (seeded pass.earlier.enums pass.taken) ops (pass.final.enums, pass.final.taken) := by
  obtain ⟨-, outcomes, returned⟩ := returns_of_run finished
  obtain ⟨es, final, listed⟩ := exists_effects returned
  rw [final]
  refine pass.start.exists_run_perform fun name values description owned => ?_
  -- An enum of a schema comes under the name of the schema, which is in use from the start.
  obtain ⟨p, member, -, causes⟩ := (listed _).mp owned
  rw [causes.own_eq]
  exact start_held fits p.1 (Entries.mem_keys.mpr ⟨p.2, member⟩)

end SchemaTypes
