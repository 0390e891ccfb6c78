import SchemaTypes.Proofs.Resolve.Declare
import SchemaTypes.Proofs.Resolve.SchemaTable

/-!
# Runs of a pass

A pass declares its schemas one after another. What one declaration leaves in the state, the later
ones keep, so at the end every outcome still stands.
-/
namespace SchemaTypes.Pass

open Data Naming Resolve ResolveState

variable {pass : Pass} {declared : NameSet} {schemas : Entries Schema}
  {outcomes : List (String × Outcome)} {before after : ResolveState} {name : String}
  {d : Declaration} {set : DeclarationSet}

/-- The schemas in order, each either skipped or declared with success. -/
inductive DeclaresAll (pass : Pass) (declared : NameSet) :
    Entries Schema → ResolveState → List (String × Outcome) → ResolveState → Prop
  | nil (s : ResolveState) : DeclaresAll pass declared [] s [] s
  | skip {name : String} (schema : Schema) {rest : Entries Schema} {before after : ResolveState}
    {outcomes : List (String × Outcome)} : name ∈ declared →
    DeclaresAll pass declared rest before outcomes after →
    DeclaresAll pass declared ((name, schema) :: rest) before outcomes after
  | declare {name : String} {schema : Schema} {rest : Entries Schema}
    {before mid after : ResolveState} {outcome : Outcome} {outcomes : List (String × Outcome)} :
    name ∉ declared → Returns ((pass.scope name).declare schema) before outcome mid →
    DeclaresAll pass declared rest mid outcomes after →
    DeclaresAll pass declared ((name, schema) :: rest) before ((name, outcome) :: outcomes) after

theorem declaresAll_of_returns
    (returned : Returns (pass.declareAll declared schemas) before outcomes after) :
    pass.DeclaresAll declared schemas before outcomes after := by
  induction schemas generalizing before outcomes with
  | nil =>
    obtain ⟨rfl, rfl⟩ := returns_pure.mp returned
    exact .nil before
  | cons e rest ih =>
    rw [declareAll] at returned
    split at returned
    next known => exact .skip e.2 (NameSet.contains_iff.mp known) (ih returned)
    next new =>
      obtain ⟨outcome, mid, first, more⟩ := returns_bind.mp returned
      obtain ⟨later, final, second, last⟩ := returns_bind.mp more
      obtain ⟨rfl, rfl⟩ := returns_pure.mp last
      exact .declare (mt NameSet.contains_iff.mpr new) first (ih second)

/-- The names of the outcomes that are enums. -/
def ownedNames (outcomes : List (String × Outcome)) : List String :=
  outcomes.flatMap fun o => o.2.owned o.1

theorem mem_ownedNames : name ∈ ownedNames outcomes ↔ (name, .enum) ∈ outcomes := by
  simp only [ownedNames, List.mem_flatMap, Prod.exists]
  constructor
  · rintro ⟨n, outcome, member, owned⟩
    cases outcome with
    | enum => exact List.mem_singleton.mp owned ▸ member
    | _ => cases owned
  · exact fun member => ⟨name, .enum, member, List.mem_singleton.mpr rfl⟩

namespace DeclaresAll

/-- There is an outcome for every schema that is not declared yet. -/
theorem keys_eq (run : pass.DeclaresAll declared schemas before outcomes after) :
    Entries.keys outcomes = (Entries.keys schemas).filter fun name => !declared.contains name := by
  induction run with
  | nil => rfl
  | skip schema known _ ih =>
    rw [Entries.keys_cons, List.filter_cons_of_neg (by simpa using known), ih]
  | declare new _ _ ih =>
    rw [Entries.keys_cons, Entries.keys_cons, ih, List.filter_cons_of_pos]
    simpa [← NameSet.contains_iff] using new

theorem sound_grows (run : pass.DeclaresAll declared schemas before outcomes after)
    (held : ∀ name ∈ Entries.keys schemas, name ∈ before.taken.taken) (sound : before.Sound) :
    after.Sound ∧ Grows (ownedNames outcomes) before after := by
  induction run with
  | nil s => exact ⟨sound, Grows.refl s⟩
  | skip schema _ _ ih =>
    exact ih (fun name member => held name (List.mem_cons_of_mem _ member)) sound
  | declare _ returned _ ih =>
    have first := Scope.declare_declares sound returned
    have grows := first.grows sound
    obtain ⟨soundAfter, later⟩ :=
      ih (fun name member => grows.taken name (held name (List.mem_cons_of_mem _ member)))
        (first.sound sound (held _ List.mem_cons_self))
    exact ⟨soundAfter, grows.trans later⟩

/-- Every outcome comes from a declaration in a sound state, after which nothing is taken away. -/
theorem of_mem {outcome : Outcome} (run : pass.DeclaresAll declared schemas before outcomes after)
    (held : ∀ name ∈ Entries.keys schemas, name ∈ before.taken.taken) (sound : before.Sound)
    (member : (name, outcome) ∈ outcomes) :
    ∃ schema s t owned, (name, schema) ∈ schemas ∧ s.Sound ∧
      Returns ((pass.scope name).declare schema) s outcome t ∧ Grows owned t after := by
  induction run with
  | nil => cases member
  | skip schema _ _ ih =>
    obtain ⟨schema, s, t, owned, listed, rest⟩ :=
      ih (fun name member => held name (List.mem_cons_of_mem _ member)) sound member
    exact ⟨schema, s, t, owned, List.mem_cons_of_mem _ listed, rest⟩
  | @declare _ _ _ state mid final _ _ _ returned rest ih =>
    have first := Scope.declare_declares sound returned
    -- The rest starts from a sound state as well, and with all of its names in use.
    have heldLater n (inside : n ∈ Entries.keys _) : n ∈ mid.taken.taken :=
      (first.grows sound).taken n (held n (List.mem_cons_of_mem _ inside))
    have soundLater := first.sound sound (held _ List.mem_cons_self)
    rcases List.mem_cons.mp member with here | later
    · cases here
      exact ⟨_, state, mid, _, List.mem_cons_self, sound, returned,
        (rest.sound_grows heldLater soundLater).2⟩
    · obtain ⟨schema, s, t, owned, listed, found⟩ := ih heldLater soundLater later
      exact ⟨schema, s, t, owned, List.mem_cons_of_mem _ listed, found⟩

variable (run : pass.DeclaresAll declared schemas before outcomes after)
  (held : ∀ name ∈ Entries.keys schemas, name ∈ before.taken.taken) (sound : before.Sound)
include run held sound

theorem mem_names_of_enum (member : (name, .enum) ∈ outcomes) : name ∈ after.enums.names := by
  obtain ⟨schema, s, t, owned, -, soundThen, returned, grows⟩ := run.of_mem held sound member
  cases Scope.declare_declares soundThen returned with
  | enum values description => exact grows.names (EnumTable.declareOwned_mem ..)

/-- A declaration has the name of its schema, and refers to what is tracked at the end. -/
theorem of_declared (member : (name, .declared d) ∈ outcomes) :
    d.name = name ∧ ∀ reference ∈ d.references, after.Tracks pass.table reference := by
  obtain ⟨schema, s, t, owned, -, soundThen, returned, grows⟩ := run.of_mem held sound member
  cases Scope.declare_declares soundThen returned with
  | declared named _ tracked =>
    exact ⟨named, fun reference inside => (tracked reference inside).mono grows⟩

end DeclaresAll

/-! ### From outcomes to sets -/

/-- What was declared before the pass. -/
def earlier (pass : Pass) : DeclarationSet :=
  pass.seed.getD .empty

def start (pass : Pass) : ResolveState :=
  let (enums, taken) := EnumTable.seeded pass.earlier.enums pass.taken
  ⟨enums, taken, pass.earlier.referenced⟩

/-- The set that the outcomes make, before pruning. -/
def assembled (pass : Pass) (outcomes : List (String × Outcome)) (s : ResolveState) :
    DeclarationSet :=
  ⟨pass.earlier.declarations ++ outcomes.filterMap (finish s.referenced), s.enums.declarations,
    s.referenced⟩

/-- The names that pruning keeps: those asked for and those declared before. -/
def roots (pass : Pass) : NameSet :=
  pass.retained.insertMany pass.earlier.declaredNames.toList

/-- The result of a run, read off the last state. -/
theorem run_eq (pass : Pass) :
    pass.run =
      match runFrom (pass.declareAll pass.earlier.declaredNames pass.table.schemas) pass.start with
      | (.error e, _) => .error e
      | (.ok outcomes, after) =>
        if pass.prune || pass.seed.isSome then
          .ok ((pass.assembled outcomes after).prune pass.roots).1
        else .ok (pass.assembled outcomes after) :=
  rfl

theorem declaresAll_of_run (finished : pass.run = .ok set) :
    ∃ outcomes after,
      pass.DeclaresAll pass.earlier.declaredNames pass.table.schemas pass.start outcomes after ∧
      (set = pass.assembled outcomes after ∧ pass.seed = none ∨
        set = ((pass.assembled outcomes after).prune pass.roots).1) := by
  rw [run_eq] at finished
  split at finished
  · cases finished
  next outcomes after returned =>
    refine ⟨outcomes, after, declaresAll_of_returns returned, ?_⟩
    split at finished
    next => exact Or.inr (Except.ok.inj finished).symm
    next unpruned =>
      exact Or.inl ⟨(Except.ok.inj finished).symm, by simp_all⟩

/-- A new declaration is what its schema was declared as, or any value where that was nothing. -/
theorem mem_filterMap_finish {referenced : NameSet} :
    d ∈ outcomes.filterMap (finish referenced) ↔
      (∃ name, (name, .declared d) ∈ outcomes) ∨
        ∃ name description, (name, .vacuous description) ∈ outcomes ∧ name ∈ referenced ∧
          d = .any name false description := by
  simp only [List.mem_filterMap, Prod.exists]
  constructor
  · rintro ⟨name, outcome, member, finished⟩
    cases outcome with
    | declared other =>
      cases finished
      exact Or.inl ⟨name, member⟩
    | enum => cases finished
    | vacuous description =>
      simp only [finish] at finished
      split at finished
      next met =>
        cases finished
        exact Or.inr ⟨name, description, member, NameSet.contains_iff.mp met, rfl⟩
      · cases finished
  · rintro (⟨name, member⟩ | ⟨name, description, member, met, rfl⟩)
    · exact ⟨name, _, member, rfl⟩
    · exact ⟨name, _, member, by simp [finish, met]⟩

end SchemaTypes.Pass
