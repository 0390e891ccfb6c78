import SchemaTypes.Proofs.Resolve.Acceptance
import SchemaTypes.Proofs.Resolve.Pass
import SchemaTypes.Proofs.Resolve.Prune

/-!
# A pass extends a valid set to a valid one

Names that were declared before stay in use, so the pass declares under other ones. A reference has
its target among the new outcomes or among what was declared before, and an inclusion that could
close a cycle leads from a new record to a new record.
-/
namespace SchemaTypes.Pass

open Data Naming Resolve ResolveState DeclarationSet

variable {pass : Pass} {outcomes : List (String × Outcome)} {after : ResolveState}
  {name : String} {d : Declaration} {set : DeclarationSet}

theorem start_sound (pass : Pass) : pass.start.Sound :=
  EnumTable.seeded_sound pass.earlier.enums pass.taken

/-- The pass starts with the enums that were declared before. -/
theorem mem_start_names (pass : Pass) :
    name ∈ pass.start.enums.names ↔ name ∈ pass.earlier.enums.map EnumDeclaration.name :=
  EnumTable.mem_names_seeded

theorem start_taken (pass : Pass) (used : name ∈ pass.taken.taken) :
    name ∈ pass.start.taken.taken := by
  have taken : pass.start.taken = _ := EnumTable.seeded_taken pass.earlier.enums pass.taken
  rw [taken, NameTable.mem_reserveAll]
  exact Or.inr used

theorem start_held (fits : pass.table.Fits pass.taken) :
    ∀ name ∈ Entries.keys pass.table.schemas, name ∈ pass.start.taken.taken :=
  fun name member => start_taken pass (fits.held name member)

section Outcomes

variable (fits : pass.table.Fits pass.taken)
  (run : pass.DeclaresAll pass.earlier.declaredNames pass.table.schemas pass.start outcomes after)
include fits run

/-! ### Outcomes -/

theorem distinct_keys : (Entries.keys outcomes).Nodup := by
  rw [run.keys_eq]
  exact fits.distinct.filter _

theorem outcome_unique {a b : Outcome} (first : (name, a) ∈ outcomes)
    (second : (name, b) ∈ outcomes) : a = b := by
  have found := Entries.get?_of_mem (distinct_keys fits run) first
  rw [Entries.get?_of_mem (distinct_keys fits run) second] at found
  exact (Option.some.inj found).symm

omit fits in
theorem mem_keys_outcomes :
    name ∈ Entries.keys outcomes ↔
      name ∈ Entries.keys pass.table.schemas ∧ name ∉ pass.earlier.names := by
  rw [run.keys_eq, List.mem_filter]
  simp [declaredNames, ← Bool.not_eq_true]

theorem sound_grows : after.Sound ∧ Grows (ownedNames outcomes) pass.start after :=
  run.sound_grows (start_held fits) (start_sound pass)

/-- A new declaration is what the schema of its name was declared as, or any value where that was
nothing. -/
theorem outcome_of_new (new : d ∈ outcomes.filterMap (finish after.referenced)) :
    (d.name, .declared d) ∈ outcomes ∨
      ∃ description, (d.name, .vacuous description) ∈ outcomes ∧ d.name ∈ after.referenced ∧
        d = .any d.name false description := by
  rcases mem_filterMap_finish.mp new with ⟨name, member⟩ | ⟨name, description, member, met, rfl⟩
  · obtain ⟨rfl, -⟩ := run.of_declared (start_held fits) (start_sound pass) member
    exact Or.inl member
  · exact Or.inr ⟨description, member, met, rfl⟩

theorem new_names_sublist :
    ((outcomes.filterMap (finish after.referenced)).map Declaration.name).Sublist
      (Entries.keys outcomes) := by
  have named : ∀ name d, (name, .declared d) ∈ outcomes → d.name = name :=
    fun _ _ member => (run.of_declared (start_held fits) (start_sound pass) member).1
  clear run
  induction outcomes with
  | nil => exact List.Sublist.refl _
  | cons o rest ih =>
    have later := ih fun n d member => named n d (List.mem_cons_of_mem _ member)
    obtain ⟨name, outcome⟩ := o
    cases outcome with
    | declared d => exact named name d List.mem_cons_self ▸ later.cons_cons _
    | enum => exact later.cons _
    | vacuous description =>
      by_cases met : after.referenced.contains name
      · simpa [finish, met, Declaration.name] using later
      · simpa [finish, met] using later.cons name

theorem enum_names : (pass.assembled outcomes after).enums.map EnumDeclaration.name =
    after.enums.names :=
  (sound_grows fits run).1.declarations_names

/-- An enum was declared before, or under a name that was free, or for a schema of its name. -/
theorem enum_name_cases (declared : name ∈ after.enums.names) :
    name ∈ pass.earlier.enums.map EnumDeclaration.name ∨ name ∉ pass.start.taken.taken ∨
      (name, .enum) ∈ outcomes := by
  rw [← mem_start_names, ← mem_ownedNames]
  exact (sound_grows fits run).2.of_mem_names declared

theorem mem_names_of_enum (declared : name ∈ after.enums.names) :
    name ∈ (pass.assembled outcomes after).names := by
  rw [names, enum_names fits run]
  exact List.mem_append_right _ declared

theorem mem_names_of_earlier (known : name ∈ pass.earlier.names) :
    name ∈ (pass.assembled outcomes after).names := by
  rcases List.mem_append.mp known with declaration | isEnum
  · rw [names, assembled, List.map_append]
    exact List.mem_append_left _ (List.mem_append_left _ declaration)
  · rw [← mem_start_names] at isEnum
    exact mem_names_of_enum fits run ((sound_grows fits run).2.names isEnum)

/-- Every outcome puts its name into the set, except for nothing that nothing refers to. -/
theorem mem_names_of_outcome {outcome : Outcome} (member : (name, outcome) ∈ outcomes)
    (met : ∀ description, outcome = .vacuous description → name ∈ after.referenced) :
    name ∈ (pass.assembled outcomes after).names := by
  have declares : ∀ d : Declaration, d.name = name →
      d ∈ outcomes.filterMap (finish after.referenced) →
      name ∈ (pass.assembled outcomes after).names :=
    fun d named new => mem_names.mpr (Or.inl ⟨d, List.mem_append_right _ new, named⟩)
  cases outcome with
  | declared d =>
    have named := (run.of_declared (start_held fits) (start_sound pass) member).1
    exact declares d named (mem_filterMap_finish.mpr (Or.inl ⟨name, member⟩))
  | enum =>
    exact mem_names_of_enum fits run
      (run.mem_names_of_enum (start_held fits) (start_sound pass) member)
  | vacuous description =>
    exact declares _ rfl (mem_filterMap_finish.mpr
      (Or.inr ⟨name, description, member, met description rfl, rfl⟩))

end Outcomes

/-- What a pass needs in order to yield a valid set. -/
structure Ready (pass : Pass) : Prop where
  fits : pass.table.Fits pass.taken
  reserved : ∀ name ∈ pass.earlier.names, name ∈ pass.taken.taken
  valid : pass.earlier.Valid

section Assembled

variable (ready : pass.Ready)
  (run : pass.DeclaresAll pass.earlier.declaredNames pass.table.schemas pass.start outcomes after)
include ready run

/-! ### Distinct names -/

theorem earlier_not_enum (member : name ∈ pass.earlier.declarations.map Declaration.name) :
    name ∉ after.enums.names := by
  intro declared
  have known : name ∈ pass.earlier.names := List.mem_append_left _ member
  -- The name has been in use from the start, and its schema, if there is one, was skipped.
  rcases enum_name_cases ready.fits run declared with old | free | owned
  · exact (List.nodup_append.mp ready.valid.distinct).2.2 name member name old rfl
  · exact free (start_taken pass (ready.reserved name known))
  · exact ((mem_keys_outcomes run).mp (Entries.mem_keys.mpr ⟨_, owned⟩)).2 known

theorem new_not_enum (new : d ∈ outcomes.filterMap (finish after.referenced)) :
    d.name ∉ after.enums.names := by
  intro declared
  obtain ⟨outcome, member, other⟩ : ∃ outcome, (d.name, outcome) ∈ outcomes ∧ outcome ≠ .enum := by
    rcases outcome_of_new ready.fits run new with listed | ⟨description, listed, -, -⟩
    · exact ⟨_, listed, nofun⟩
    · exact ⟨_, listed, nofun⟩
  obtain ⟨key, unknown⟩ := (mem_keys_outcomes run).mp (Entries.mem_keys.mpr ⟨_, member⟩)
  -- The table holds the name, and its schema came to the declaration instead of an enum.
  rcases enum_name_cases ready.fits run declared with old | free | owned
  · exact unknown (List.mem_append_right _ old)
  · exact free (start_held ready.fits _ key)
  · exact other (outcome_unique ready.fits run member owned)

theorem assembled_distinct : (pass.assembled outcomes after).names.Nodup := by
  have declarations :
      ((pass.assembled outcomes after).declarations.map Declaration.name).Nodup := by
    rw [assembled, List.map_append]
    refine ready.valid.distinct.of_append_left.append
      ((distinct_keys ready.fits run).sublist (new_names_sublist ready.fits run)) ?_
    intro name old new
    have key := (new_names_sublist ready.fits run).subset new
    exact ((mem_keys_outcomes run).mp key).2 (List.mem_append_left _ old)
  rw [names, enum_names ready.fits run]
  refine declarations.append (sound_grows ready.fits run).1.distinct ?_
  intro name declared isEnum
  rw [assembled, List.map_append, List.mem_append] at declared
  rcases declared with old | new
  · exact earlier_not_enum ready run old isEnum
  · obtain ⟨d, member, rfl⟩ := List.mem_map.mp new
    exact new_not_enum ready run member isEnum

/-! ### Targets of references -/

/-- What is tracked at the end is there. -/
theorem mem_names_of_tracks (tracks : after.Tracks pass.table name) :
    name ∈ (pass.assembled outcomes after).names := by
  rcases tracks.target with isEnum | ⟨pointer, designated⟩
  · exact mem_names_of_enum ready.fits run isEnum
  · have key := ready.fits.mem_of_resolvePointer designated
    by_cases known : name ∈ pass.earlier.names
    · exact mem_names_of_earlier ready.fits run known
    · obtain ⟨outcome, member⟩ := Entries.mem_keys.mp ((mem_keys_outcomes run).mpr ⟨key, known⟩)
      -- Even nothing becomes a declaration, because the name is referenced.
      exact mem_names_of_outcome ready.fits run member fun _ _ => tracks.referenced

theorem assembled_closed : (pass.assembled outcomes after).Closed := by
  intro d member name mentioned
  rcases List.mem_append.mp member with old | new
  · exact mem_names_of_earlier ready.fits run (ready.valid.closed d old name mentioned)
  · have reference := Declaration.mem_references_iff.mpr mentioned
    rcases outcome_of_new ready.fits run new with listed | ⟨description, -, -, same⟩
    · have tracked := (run.of_declared (start_held ready.fits) (start_sound pass) listed).2
      exact mem_names_of_tracks ready run (tracked name reference)
    · rw [same] at reference
      cases reference

/-! ### Inclusions -/

/-- An inclusion was there before, or it belongs to a new record and no path leads back from it. -/
theorem includes_cases {included : String}
    (includes : (pass.assembled outcomes after).Includes name included) :
    pass.earlier.Includes name included ∨
      name ∉ pass.earlier.names ∧ included ∈ pass.table.inclusionEdges name ∧
        ¬ Reaches pass.table.inclusionEdges included name := by
  obtain ⟨d, member, rfl, inside⟩ := includes
  rcases List.mem_append.mp member with old | new
  · exact Or.inl ⟨d, old, rfl, inside⟩
  · rcases outcome_of_new ready.fits run new with listed | ⟨description, -, -, same⟩
    · obtain ⟨schema, s, t, owned, entry, -, returned, -⟩ :=
        run.of_mem (start_held ready.fits) (start_sound pass) listed
      obtain ⟨edge, nothing⟩ := Scope.declare_inclusions returned inside
      have found := Entries.get?_of_mem ready.fits.distinct entry
      refine Or.inr ⟨((mem_keys_outcomes run).mp (Entries.mem_keys.mpr ⟨_, listed⟩)).2, ?_,
        SchemaTable.not_reaches_of_inclusionPath? nothing⟩
      rw [SchemaTable.inclusionEdges, SchemaTable.get?, found]
      exact edge
    · rw [same] at inside
      cases inside

omit run in
/-- What was declared before includes only what was declared before. -/
theorem earlier_of_includes {included : String} (includes : pass.earlier.Includes name included) :
    name ∈ pass.earlier.names ∧ included ∈ pass.earlier.names := by
  obtain ⟨d, member, rfl, inside⟩ := includes
  refine ⟨mem_names.mpr (Or.inl ⟨d, member, rfl⟩), ready.valid.closed d member included ?_⟩
  exact Declaration.mem_references_iff.mp (Declaration.mem_references_of_inclusion inside)

theorem earlier_transGen {first last : String}
    (path : Relation.TransGen (pass.assembled outcomes after).Includes first last)
    (known : first ∈ pass.earlier.names) :
    Relation.TransGen pass.earlier.Includes first last ∧ last ∈ pass.earlier.names := by
  -- The path cannot leave what was declared before, whose records are still the same.
  induction path with
  | single edge =>
    have old := (includes_cases ready run edge).resolve_right fun new => new.1 known
    exact ⟨.single old, (earlier_of_includes ready old).2⟩
  | tail _ edge ih =>
    have old := (includes_cases ready run edge).resolve_right fun new => new.1 ih.2
    exact ⟨ih.1.tail old, (earlier_of_includes ready old).2⟩

/-- A path of inclusions to a new record leads along edges of the table. -/
theorem reaches_of_new {first last : String} (new : last ∉ pass.earlier.names)
    (path : Relation.ReflTransGen (pass.assembled outcomes after).Includes first last) :
    Reaches pass.table.inclusionEdges first last := by
  induction path using Relation.ReflTransGen.head_induction_on with
  | refl => exact Relation.ReflTransGen.refl
  | @head a c edge rest ih =>
    -- From a record declared before, the path would not come to a new one.
    rcases includes_cases ready run edge with old | ⟨-, step, -⟩
    · have path := Relation.TransGen.head' edge rest
      exact absurd (earlier_transGen ready run path (earlier_of_includes ready old).1).2 new
    · exact ih.head step

/-- A cycle would lie in what was declared before, or the first of its inclusions would have been
refused. -/
theorem assembled_acyclic : (pass.assembled outcomes after).Acyclic := by
  intro name cycle
  obtain ⟨included, edge, back⟩ := Relation.TransGen.head'_iff.mp cycle
  rcases includes_cases ready run edge with old | ⟨new, -, noPath⟩
  · have known := (earlier_of_includes ready old).1
    exact ready.valid.acyclic name (earlier_transGen ready run cycle known).1
  · exact noPath (reaches_of_new ready run new back)

theorem assembled_valid : (pass.assembled outcomes after).Valid :=
  ⟨assembled_distinct ready run, assembled_closed ready run, assembled_acyclic ready run⟩

end Assembled

/-- A pass that extends a valid set yields a valid set. -/
theorem run_valid (ready : pass.Ready) (finished : pass.run = .ok set) : set.Valid := by
  obtain ⟨outcomes, after, run, ⟨rfl, -⟩ | rfl⟩ := declaresAll_of_run finished
  · exact assembled_valid ready run
  · exact prune_valid (assembled_valid ready run) _

end SchemaTypes.Pass
