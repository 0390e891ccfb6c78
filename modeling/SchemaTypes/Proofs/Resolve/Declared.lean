import SchemaTypes.Proofs.Resolve.Assembly
import SchemaTypes.Proofs.Resolve.Kinds

/-!
# What a set declares

A pass declares every schema whose name is new. So the parts of the schemas tell which names a set
declares, which of them as records, and what the bodies of its records are made from.
-/
namespace SchemaTypes

open Data Resolve

/-! ### Pruned sets -/

namespace DeclarationSet

variable {set : DeclarationSet} {roots : NameSet} {name : String} {ms : List Member}

/-- Pruning keeps the roots. -/
theorem mem_prune_names_of_root (root : name ∈ roots) :
    name ∈ (set.prune roots).1.names ↔ name ∈ set.names := by
  refine ⟨fun kept => (prune_names_sublist set roots).subset kept, fun declared => ?_⟩
  rcases mem_names.mp declared with ⟨d, member, rfl⟩ | isEnum
  · have reached := (reachable_closed set roots.toList).1 (NameSet.mem_def.mp root)
    exact mem_names.mpr (Or.inl ⟨d, mem_prune_declarations.mpr ⟨member, reached⟩, rfl⟩)
  · exact mem_names.mpr (Or.inr isEnum)

/-- What shares its name with something that pruning keeps is kept. -/
theorem mem_prune_of_mem_names {d : Declaration} (distinct : set.names.Nodup)
    (member : d ∈ set.declarations) (kept : d.name ∈ (set.prune roots).1.names) :
    d ∈ (set.prune roots).1.declarations := by
  rcases mem_names.mp kept with ⟨other, listed, same⟩ | ⟨e, isEnum, same⟩
  · have reached := (mem_prune_declarations.mp listed).2
    exact mem_prune_declarations.mpr ⟨member, same ▸ reached⟩
  · have apart := (List.nodup_append.mp distinct).2.2
    exact absurd same.symm
      (apart d.name (List.mem_map_of_mem member) e.name (List.mem_map_of_mem isEnum))

theorem HasBody.of_prune (body : (set.prune roots).1.HasBody ms) : set.HasBody ms := by
  obtain ⟨d, kept, inside⟩ := body
  exact ⟨d, (mem_prune_declarations.mp kept).1, inside⟩

end DeclarationSet

namespace Pass

open ResolveState DeclarationSet

variable {pass : Pass} {outcomes : List (String × Outcome)} {after : ResolveState}
  {name : String} {schema : Schema} {d : Declaration} {ms : List Member} {set : DeclarationSet}

section Outcomes

variable (fits : pass.table.Fits pass.taken)
  (run : pass.DeclaresAll pass.earlier.declaredNames pass.table.schemas pass.start outcomes after)
include fits run

theorem exists_outcome (entry : (name, schema) ∈ pass.table.schemas)
    (new : name ∉ pass.earlier.names) :
    ∃ outcome before mid, (name, outcome) ∈ outcomes ∧
      Returns ((pass.scope name).declare schema) before outcome mid := by
  have key : name ∈ Entries.keys pass.table.schemas := Entries.mem_keys.mpr ⟨schema, entry⟩
  obtain ⟨outcome, member⟩ := Entries.mem_keys.mp ((mem_keys_outcomes run).mpr ⟨key, new⟩)
  obtain ⟨other, before, mid, owned, listed, -, returned, -⟩ :=
    run.of_mem (start_held fits) (start_sound pass) member
  -- The names of the table are distinct, so this is the schema that was declared.
  have found := Entries.get?_of_mem fits.distinct listed
  rw [Entries.get?_of_mem fits.distinct entry] at found
  obtain rfl := Option.some.inj found
  exact ⟨outcome, before, mid, member, returned⟩

/-! ### Names -/

/-- Where a declaration came to nothing, the name is there only if something refers to it. -/
theorem referenced_of_vacuous {description : Option String}
    (member : (name, .vacuous description) ∈ outcomes)
    (declared : name ∈ (pass.assembled outcomes after).names) : name ∈ after.referenced := by
  obtain ⟨key, unknown⟩ := (mem_keys_outcomes run).mp (Entries.mem_keys.mpr ⟨_, member⟩)
  have noOther {outcome : Outcome} (listed : (name, outcome) ∈ outcomes) :=
    outcome_unique fits run member listed
  -- A declaration or an enum of the name would come from another outcome of the same schema.
  rcases List.mem_append.mp declared with declaration | isEnum
  · obtain ⟨d, listed, rfl⟩ := List.mem_map.mp declaration
    rcases List.mem_append.mp listed with old | new
    · exact absurd (mem_names.mpr (Or.inl ⟨d, old, rfl⟩)) unknown
    · rcases outcome_of_new fits run new with other | ⟨_, _, met, _⟩
      · cases noOther other
      · exact met
  · rw [enum_names fits run] at isEnum
    rcases enum_name_cases fits run isEnum with old | free | owned
    · exact absurd (List.mem_append_right _ old) unknown
    · exact absurd (start_held fits name key) free
    · cases noOther owned

/-- The name of a schema is there if it was there before, or something refers to it, or the schema
has a shape, and not otherwise. -/
theorem mem_names_iff (entry : (name, schema) ∈ pass.table.schemas) :
    name ∈ (pass.assembled outcomes after).names ↔
      name ∈ pass.earlier.names ∨ name ∈ after.referenced ∨ schema.isShapeless = false := by
  by_cases known : name ∈ pass.earlier.names
  · exact iff_of_true (mem_names_of_earlier fits run known) (Or.inl known)
  -- The name is new, so the outcome of its schema decides.
  obtain ⟨outcome, before, mid, member, returned⟩ := exists_outcome fits run entry known
  have vacuous_iff := Scope.declare_vacuous_iff returned
  rw [or_iff_right known]
  constructor
  · intro declared
    cases shapeless : schema.isShapeless with
    | false => exact Or.inr rfl
    | true =>
      obtain ⟨description, rfl⟩ := vacuous_iff.mpr shapeless
      exact Or.inl (referenced_of_vacuous fits run member declared)
  · intro shown
    refine mem_names_of_outcome fits run member fun description same => ?_
    have shapeless := vacuous_iff.mp ⟨description, same⟩
    exact shown.resolve_right (by simp [shapeless])

/-! ### Records -/

/-- A schema with a new name is there as a record exactly if it has the parts of one. -/
theorem mem_record_iff (entry : (name, schema) ∈ pass.table.schemas)
    (new : name ∉ pass.earlier.names) :
    (∃ ms description, .record name ms description ∈ (pass.assembled outcomes after).declarations) ↔
      schema.isRecord = true := by
  obtain ⟨outcome, before, mid, member, returned⟩ := exists_outcome fits run entry new
  rw [← Scope.declare_record_iff returned]
  constructor
  · rintro ⟨ms, description, declared⟩
    rcases List.mem_append.mp declared with old | fresh
    · exact absurd (mem_names.mpr (Or.inl ⟨_, old, rfl⟩)) new
    · rcases outcome_of_new fits run fresh with listed | ⟨_, _, _, same⟩
      · exact ⟨ms, description, outcome_unique fits run member listed⟩
      · cases same
  · rintro ⟨ms, description, rfl⟩
    exact ⟨ms, description,
      List.mem_append_right _ (mem_filterMap_finish.mpr (Or.inl ⟨name, member⟩))⟩

/-- A body was there before, or it is made from a node of a schema. -/
theorem hasBody_cases (body : (pass.assembled outcomes after).HasBody ms) :
    pass.earlier.HasBody ms ∨ ∃ name schema, (name, schema) ∈ pass.table.schemas ∧
      ∃ c, schema.Contains c ∧ (pass.scope name).Body c ms := by
  obtain ⟨d, member, inside⟩ := body
  rcases List.mem_append.mp member with old | new
  · exact Or.inl ⟨d, old, inside⟩
  · rcases outcome_of_new fits run new with listed | ⟨description, -, -, same⟩
    · obtain ⟨schema, before, mid, owned, entry, -, returned, -⟩ :=
        run.of_mem (start_held fits) (start_sound pass) listed
      exact Or.inr ⟨d.name, schema, entry, Scope.body_of_declare returned inside⟩
    · -- Any value has neither a body nor a type inside.
      rw [same] at inside
      cases inside with
      | inline below => cases below

end Outcomes

/-- With nothing declared before, every body is made from a node of a schema. -/
theorem exists_body_of_run (fits : pass.table.Fits pass.taken) (first : pass.earlier = .empty)
    (finished : pass.run = .ok set) (body : set.HasBody ms) :
    ∃ name schema, (name, schema) ∈ pass.table.schemas ∧
      ∃ c, schema.Contains c ∧ (pass.scope name).Body c ms := by
  obtain ⟨outcomes, after, run, last⟩ := declaresAll_of_run finished
  have assembledBody : (pass.assembled outcomes after).HasBody ms := by
    rcases last with ⟨rfl, -⟩ | rfl
    · exact body
    · exact body.of_prune
  refine (hasBody_cases fits run assembledBody).resolve_left fun old => ?_
  rw [first] at old
  obtain ⟨d, member, -⟩ := old
  cases member

end Pass
end SchemaTypes
