import SchemaTypes.Proofs.Resolve.Acceptance
import SchemaTypes.Proofs.Resolve.Chain
import SchemaTypes.Proofs.Resolve.Normalization
import SchemaTypes.Proofs.Resolve.Reseeding

/-!
# Accepted documents

A first pass succeeds exactly if the keys of the document make names, its schemas follow the
grammar, and none of them is reached again from what it embeds.
-/
namespace SchemaTypes

open Data Naming Resolve

/-! ### Tables -/

namespace SchemaTable

variable {keys : List String} {taken : NameTable} {schema? : String → Option Schema}

theorem exists_nameKeys_iff :
    (∃ named, nameKeys keys taken = .ok named) ↔ ∀ key ∈ keys, normalize key true ≠ "" := by
  refine ⟨?_, fun usable => ?_⟩
  · rintro ⟨named, built⟩
    induction keys generalizing taken named with
    | nil => exact fun _ member => nomatch member
    | cons key rest ih =>
      rw [nameKeys] at built
      split at built
      · cases built
      next base usable =>
        obtain ⟨later, more, -⟩ := bind_eq_ok.mp built
        exact List.forall_mem_cons.mpr ⟨usable, ih later more⟩
  · obtain ⟨names, after, named⟩ := exists_nameKeys usable taken
    exact ⟨(names, after), named⟩

theorem exists_select_iff :
    (∃ entries, select schema? keys = .ok entries) ↔
      ∀ key ∈ keys, ∃ schema, schema? key = some schema := by
  induction keys with
  | nil => simp [select]
  | cons key rest ih =>
    rw [List.forall_mem_cons, ← ih, select]
    cases schema? key with
    | none => simp
    | some schema => simp [bind_eq_ok, pure, Except.pure]

/-- What a table asks of one of its schemas. -/
structure Admits (table : SchemaTable) (name : String) (s : Schema) : Prop where
  acceptable : table.Acceptable s
  /-- No edges lead from what the schema embeds to the schema itself. -/
  acyclic : ∀ target, table.Embeds s target → ¬ Reaches table.inclusionEdges target name

end SchemaTable

/-! ### Passes -/

namespace Pass

variable {pass : Pass} {declared : NameSet} {schemas : Entries Schema} {name : String} {s : Schema}
  {before : ResolveState}

theorem exists_outcome_iff :
    (∃ outcome after, Returns ((pass.scope name).declare s) before outcome after) ↔
      pass.table.Admits name s := by
  have checks := (Scope.checks_declare (pass.scope name) s).returns_iff before
  constructor
  · intro returned
    obtain ⟨acceptable, noPath⟩ := checks.mp returned
    exact ⟨acceptable, fun target embeds =>
      SchemaTable.inclusionPath?_eq_none_iff.mp (noPath target embeds)⟩
  · intro admits
    refine checks.mpr ⟨admits.acceptable, fun target embeds => ?_⟩
    exact SchemaTable.inclusionPath?_eq_none_iff.mpr (admits.acyclic target embeds)

/-- Each schema is admitted or not, whatever was declared before it. -/
theorem exists_outcomes_iff :
    (∃ outcomes after, Returns (pass.declareAll declared schemas) before outcomes after) ↔
      ∀ p ∈ schemas, p.1 ∉ declared → pass.table.Admits p.1 p.2 := by
  induction schemas generalizing before with
  | nil =>
    refine iff_of_true ⟨[], before, rfl⟩ fun p member => ?_
    cases member
  | cons p rest ih =>
    rw [declareAll, List.forall_mem_cons]
    split
    next known =>
      have skipped : p.1 ∉ declared → pass.table.Admits p.1 p.2 :=
        absurd (NameSet.contains_iff.mp known)
      rw [ih, and_iff_right skipped]
    next new =>
      have unknown : p.1 ∉ declared := mt NameSet.contains_iff.mpr new
      constructor
      · rintro ⟨outcomes, after, returned⟩
        obtain ⟨outcome, mid, first, more⟩ := returns_bind.mp returned
        obtain ⟨later, final, second, -⟩ := returns_bind.mp more
        exact ⟨fun _ => exists_outcome_iff.mp ⟨outcome, mid, first⟩, ih.mp ⟨later, final, second⟩⟩
      · rintro ⟨here, there⟩
        obtain ⟨outcome, mid, first⟩ := exists_outcome_iff.mpr (here unknown)
        obtain ⟨later, after, second⟩ := ih.mpr there
        exact ⟨(p.1, outcome) :: later, after, returns_bind.mpr ⟨outcome, mid, first,
          returns_bind.mpr ⟨later, after, second, rfl⟩⟩⟩

theorem exists_run_iff :
    (∃ set, pass.run = .ok set) ↔
      ∀ p ∈ pass.table.schemas, p.1 ∉ pass.earlier.declaredNames →
        pass.table.Admits p.1 p.2 := by
  rw [← exists_outcomes_iff]
  constructor
  · rintro ⟨set, finished⟩
    obtain ⟨-, outcomes, returned⟩ := returns_of_run finished
    exact ⟨outcomes, _, returned⟩
  · rintro ⟨outcomes, after, returned⟩
    exact exists_run_of_returns returned

end Pass

/-! ### Documents -/

namespace Request

variable {r : Request}

theorem exists_pass_iff :
    (∃ pass, r.pass none = .ok pass) ↔
      ∀ key ∈ r.keys, (∃ schema, r.schema? key = some schema) ∧ normalize key true ≠ "" := by
  rw [forall₂_and, ← SchemaTable.exists_select_iff]
  constructor
  · rintro ⟨pass, prepared⟩
    obtain ⟨fresh, built, -⟩ := bind_eq_ok.mp prepared
    obtain ⟨entries, table, taken, selected, tabled, -⟩ := Pass.ofSource_spec built
    obtain ⟨keyed, -⟩ := SchemaTable.ofEntries_spec tabled
    refine ⟨⟨entries, selected⟩, fun key member => ?_⟩
    -- A key that is listed twice is named once.
    have listed : key ∈ Entries.keys (Entries.ofList entries) := by
      rw [Entries.mem_keys_ofList, SchemaTable.keys_select selected]
      exact member
    exact SchemaTable.exists_nameKeys_iff.mp ⟨_, keyed⟩ key listed
  · rintro ⟨⟨entries, selected⟩, usable⟩
    have usableEntries : ∀ key ∈ Entries.keys (Entries.ofList entries),
        normalize key true ≠ "" := by
      intro key member
      rw [Entries.mem_keys_ofList, SchemaTable.keys_select selected] at member
      exact usable key member
    have nameable : ∃ named, SchemaTable.nameKeys (Entries.keys (Entries.ofList entries)) {} =
        .ok named := SchemaTable.exists_nameKeys_iff.mpr usableEntries
    obtain ⟨named, keyed⟩ := nameable
    exact ⟨_, bind_eq_ok.mpr ⟨_, bind_eq_ok.mpr ⟨entries, selected,
      bind_eq_ok.mpr ⟨_, bind_eq_ok.mpr ⟨named, keyed, rfl⟩, rfl⟩⟩, rfl⟩⟩

/-- A first pass succeeds exactly if it can be prepared and its table admits all of its schemas. -/
theorem exists_first_iff :
    (∃ set, r.run none = .ok set) ↔
      ∃ pass, r.pass none = .ok pass ∧ ∀ p ∈ pass.table.schemas, pass.table.Admits p.1 p.2 := by
  have unknown pass (prepared : r.pass none = .ok pass) name :
      name ∉ pass.earlier.declaredNames := by
    rw [earlier_of_pass prepared]
    exact NameSet.not_mem_empty
  constructor
  · rintro ⟨set, finished⟩
    obtain ⟨pass, prepared, ran⟩ := bind_eq_ok.mp finished
    refine ⟨pass, prepared, fun p member => ?_⟩
    exact Pass.exists_run_iff.mp ⟨set, ran⟩ p member (unknown pass prepared p.1)
  · rintro ⟨pass, prepared, admits⟩
    obtain ⟨set, ran⟩ := Pass.exists_run_iff.mpr fun p member _ => admits p member
    exact ⟨set, bind_eq_ok.mpr ⟨pass, prepared, ran⟩⟩

/-- A document is accepted exactly if every key makes a name, every schema follows the grammar, and
from nothing that a schema embeds do the edges lead back to it. The table in which all this is said
has the schemas of the document, under their names and with their pointers carried over. -/
theorem document_accepted_iff (d : Document) (reserved : ReservedWords) (retained : List String)
    (prune : Bool) :
    let r := { ofDocument d with reserved := reserved, retained := retained, prune := prune }
    ((∃ set, r.run none = .ok set) ↔
      (∀ key ∈ Entries.keys d.schemas, normalize key true ≠ "") ∧
        ∀ pass, r.pass none = .ok pass → ∀ p ∈ pass.table.schemas,
          pass.table.Acceptable p.2 ∧
            ∀ target, pass.table.Embeds p.2 target →
              ¬ Reaches pass.table.inclusionEdges target p.1) ∧
    ∀ pass, r.pass none = .ok pass → pass.table.Normalizes r.entries {} := by
  intro r
  refine ⟨?_, fun pass prepared => normalizes_of_pass prepared⟩
  have prepared : (∃ pass, r.pass none = .ok pass) ↔
      ∀ key ∈ Entries.keys d.schemas, normalize key true ≠ "" := by
    refine exists_pass_iff.trans (forall₂_congr fun key member => ?_)
    exact and_iff_right (Entries.exists_get? member)
  rw [exists_first_iff, ← prepared]
  constructor
  · rintro ⟨pass, built, admits⟩
    refine ⟨⟨pass, built⟩, fun other same p member => ?_⟩
    obtain rfl : pass = other := Except.ok.inj (built.symm.trans same)
    exact ⟨(admits p member).acceptable, (admits p member).acyclic⟩
  · rintro ⟨⟨pass, built⟩, admits⟩
    refine ⟨pass, built, fun p member => ?_⟩
    obtain ⟨acceptable, acyclic⟩ := admits pass built p member
    exact ⟨acceptable, acyclic⟩

end Request
end SchemaTypes
