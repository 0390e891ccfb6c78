import SchemaTypes.Proofs.Resolve.Chain
import SchemaTypes.Proofs.Resolve.Declared

/-!
# A seeded pass extends its seed

What a seed declares comes first in the set that a pass yields, as it was and in its order. Its
names are taken from the start, schemas with one of them are skipped, and its enums stand at the
head of the enum table. So nothing new gets a name of the seed, and pruning has all of them as
roots.
-/
namespace SchemaTypes

open Data Resolve ResolveState

namespace DeclarationSet

/-- Everything in the seed comes first and is unchanged, and what follows has other names. -/
structure Extends (set seed : DeclarationSet) : Prop where
  declarations : ∃ new, set.declarations = seed.declarations ++ new ∧
    ∀ d ∈ new, d.name ∉ seed.names
  enums : ∃ new, set.enums = seed.enums ++ new ∧ ∀ e ∈ new, e.name ∉ seed.names
  referenced : ∀ name ∈ seed.referenced, name ∈ set.referenced

variable {set mid seed : DeclarationSet}

theorem Extends.refl (set : DeclarationSet) : set.Extends set :=
  ⟨⟨[], by simp⟩, ⟨[], by simp⟩, fun _ => id⟩

theorem Extends.names (longer : set.Extends seed) {name : String} (known : name ∈ seed.names) :
    name ∈ set.names := by
  obtain ⟨declarations, listed, -⟩ := longer.declarations
  obtain ⟨enums, listedEnums, -⟩ := longer.enums
  rw [DeclarationSet.names, listed, listedEnums, List.map_append, List.map_append]
  exact (List.mem_append.mp known).elim
    (fun member => List.mem_append_left _ (List.mem_append_left _ member))
    fun member => List.mem_append_right _ (List.mem_append_left _ member)

/-- What has none of the longer set's names has none of the shorter one's. -/
theorem Extends.trans (second : set.Extends mid) (first : mid.Extends seed) : set.Extends seed := by
  obtain ⟨declarations, listed, apart⟩ := first.declarations
  obtain ⟨later, listedLater, apartLater⟩ := second.declarations
  obtain ⟨enums, listedEnums, apartEnums⟩ := first.enums
  obtain ⟨laterEnums, listedLaterEnums, apartLaterEnums⟩ := second.enums
  refine ⟨⟨declarations ++ later, ?_, fun d member => ?_⟩,
    ⟨enums ++ laterEnums, ?_, fun e member => ?_⟩,
    fun name met => second.referenced name (first.referenced name met)⟩
  · rw [listedLater, listed, List.append_assoc]
  · rcases List.mem_append.mp member with early | late
    · exact apart d early
    · exact mt first.names (apartLater d late)
  · rw [listedLaterEnums, listedEnums, List.append_assoc]
  · rcases List.mem_append.mp member with early | late
    · exact apartEnums e early
    · exact mt first.names (apartLaterEnums e late)

theorem filter_reachable_eq_self {roots : NameSet} {ds : List Declaration}
    (kept : ∀ d ∈ ds, d.name ∈ roots) :
    (ds.filter fun d => (set.reachable roots.toList).contains d.name) = ds := by
  refine List.filter_eq_self.mpr fun d member => List.contains_iff_mem.mpr ?_
  exact (reachable_closed set roots.toList).1 (NameSet.mem_def.mp (kept d member))

/-- With all of its names as roots, a set is pruned to itself. -/
theorem prune_eq_self {roots : NameSet} (kept : ∀ name ∈ set.names, name ∈ roots) :
    (set.prune roots).1 = set := by
  rw [prune, filter_reachable_eq_self]
  exact fun d member => kept d.name (mem_names.mpr (Or.inl ⟨d, member, rfl⟩))

/-- Pruning keeps an extension of a seed if all names of the seed are roots. -/
theorem Extends.prune {roots : NameSet} (longer : set.Extends seed)
    (kept : ∀ name ∈ seed.names, name ∈ roots) : (set.prune roots).1.Extends seed := by
  obtain ⟨new, listed, apart⟩ := longer.declarations
  refine ⟨⟨new.filter fun d => (set.reachable roots.toList).contains d.name, ?_,
    fun d member => apart d (List.mem_filter.mp member).1⟩, longer.enums, longer.referenced⟩
  -- The filter goes over both parts, and drops nothing of the first one.
  rw [DeclarationSet.prune, listed, List.filter_append, filter_reachable_eq_self]
  exact fun d member => kept d.name (mem_names.mpr (Or.inl ⟨d, member, rfl⟩))

end DeclarationSet

namespace Pass

open DeclarationSet

variable {pass : Pass} {outcomes : List (String × Outcome)} {after : ResolveState}
  {set : DeclarationSet}

/-- The enum table of the start holds the enums of the seed in their order. -/
theorem start_declarations (valid : pass.earlier.Valid) :
    pass.start.enums.declarations = pass.earlier.enums := by
  have seeded : pass.start.enums.enums = pass.earlier.enums.map fun e => (e.name, e) :=
    EnumTable.seeded_enums valid.distinct.of_append_right pass.taken
  rw [EnumTable.declarations, seeded, List.map_map]
  exact List.map_id _

section Assembled

variable (ready : pass.Ready)
  (run : pass.DeclaresAll pass.earlier.declaredNames pass.table.schemas pass.start outcomes after)
include ready run

theorem new_name_not_earlier {d : Declaration}
    (new : d ∈ outcomes.filterMap (finish after.referenced)) : d.name ∉ pass.earlier.names := by
  have key := (new_names_sublist ready.fits run).subset (List.mem_map_of_mem new)
  exact ((mem_keys_outcomes run).mp key).2

/-- The enums of the seed stay in front, and a new one has a name that was free or that is the name
of a new schema. -/
theorem exists_new_enums :
    ∃ new, after.enums.declarations = pass.earlier.enums ++ new ∧
      ∀ e ∈ new, e.name ∉ pass.earlier.names := by
  obtain ⟨sound, grows⟩ := sound_grows ready.fits run
  obtain ⟨new, appended, free⟩ := grows.enums
  refine ⟨new.map Prod.snd, ?_, fun e member => ?_⟩
  · rw [← start_declarations ready.valid, EnumTable.declarations, appended, List.map_append]
    rfl
  · obtain ⟨entry, listed, rfl⟩ := List.mem_map.mp member
    rw [sound.keyed entry (appended ▸ List.mem_append_right _ listed)]
    intro known
    -- A name of the seed is in use from the start, and its schema is skipped.
    rcases free entry listed with unused | owned
    · exact unused (start_taken pass (ready.reserved _ known))
    · have key := Entries.mem_keys.mpr ⟨_, mem_ownedNames.mp owned⟩
      exact ((mem_keys_outcomes run).mp key).2 known

theorem assembled_extends : (pass.assembled outcomes after).Extends pass.earlier :=
  ⟨⟨_, rfl, fun _ => new_name_not_earlier ready run⟩, exists_new_enums ready run,
    (sound_grows ready.fits run).2.referenced⟩

end Assembled

theorem mem_roots_of_earlier {name : String} (known : name ∈ pass.earlier.names) :
    name ∈ pass.roots :=
  NameSet.mem_insertMany.mpr (Or.inl (NameSet.mem_ofList.mpr known))

theorem run_extends (ready : pass.Ready) (finished : pass.run = .ok set) :
    set.Extends pass.earlier := by
  obtain ⟨outcomes, after, run, ⟨rfl, -⟩ | rfl⟩ := declaresAll_of_run finished
  · exact assembled_extends ready run
  · exact (assembled_extends ready run).prune fun _ => mem_roots_of_earlier

end Pass

/-! ### Chains -/

variable {seed set : DeclarationSet}

theorem Request.run_extends {r : Request} {seed : Option DeclarationSet}
    (valid : ∀ s ∈ seed, s.Valid) (finished : r.run seed = .ok set) :
    set.Extends (seed.getD .empty) := by
  obtain ⟨pass, prepared, last⟩ := bind_eq_ok.mp finished
  rw [← earlier_of_pass prepared]
  exact Pass.run_extends (pass_ready valid prepared) last

/-- Whatever a chain yields, a pass seeded with it keeps all of it, and declares nothing under its
names. -/
theorem Request.run_seed_extends (r : Request) (emitted : Emitted seed)
    (finished : r.run (some seed) = .ok set) : set.Extends seed :=
  run_extends (fun _ member => Option.mem_some.mp member ▸ emitted.valid) finished

theorem Zoo.zoo_extends_shop : Emitted shopSet ∧ zoo.run (some shopSet) = .ok zooSet ∧
    zooSet.Extends shopSet :=
  ⟨.first shop shop_run, zoo_run, zoo.run_seed_extends (.first shop shop_run) zoo_run⟩

/-- However far a chain goes on, what it has yielded stays in front. -/
theorem Emitted.extends_of_later (emitted : Emitted seed)
    (later : Relation.ReflTransGen (fun s t => ∃ r : Request, r.run (some s) = .ok t) seed set) :
    Emitted set ∧ set.Extends seed := by
  induction later with
  | refl => exact ⟨emitted, .refl seed⟩
  | tail _ step ih =>
    obtain ⟨r, finished⟩ := step
    have longer :=
      Request.run_extends (fun _ member => Option.mem_some.mp member ▸ ih.1.valid) finished
    exact ⟨.next r ih.1 finished, longer.trans ih.2⟩

end SchemaTypes
