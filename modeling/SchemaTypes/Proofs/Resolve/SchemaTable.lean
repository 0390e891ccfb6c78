import SchemaTypes.Proofs.Data.Entries
import SchemaTypes.Proofs.Naming.NameTable
import SchemaTypes.Proofs.Resolve.Computation
import SchemaTypes.Resolve.Pass

/-!
# Names of a schema table

Every key of a document is given a name of its own, which is in use from then on, and pointers
designate schemas of the table only.
-/
namespace SchemaTypes.SchemaTable

open Data Naming

variable {table : SchemaTable} {taken after : NameTable} {keys names : List String} {name : String}

/-- New names for the keys, distinct and in use afterwards. -/
theorem nameKeys_spec (named : nameKeys keys taken = .ok (names, after)) :
    names.length = keys.length ∧ names.Nodup ∧ (∀ name ∈ names, name ∉ taken.taken) ∧
      ∀ name, name ∈ after.taken ↔ name ∈ names ∨ name ∈ taken.taken := by
  induction keys generalizing taken names with
  | nil =>
    cases named
    simp
  | cons key rest ih =>
    rw [nameKeys] at named
    split at named
    · cases named
    next =>
      obtain ⟨⟨later, final⟩, first, last⟩ := bind_eq_ok.mp named
      cases last
      obtain ⟨length, distinct, fresh, held⟩ := ih first
      -- The later names were free after this claim, so none of them is the name that it gave.
      refine ⟨by simp [length], List.nodup_cons.mpr ⟨fun member => ?_, distinct⟩, ?_, ?_⟩
      · exact fresh _ member (NameTable.mem_reserve.mpr (Or.inl rfl))
      · intro name member
        rcases List.mem_cons.mp member with rfl | inside
        · exact NameTable.freeName_not_mem
        · exact mt (NameTable.mem_reserve_of_mem _) (fresh name inside)
      · intro name
        rw [held, NameTable.mem_reserve, List.mem_cons]
        exact or_left_comm.trans or_assoc.symm

/-- The names of a table are distinct and in use, and the keys of the document stand for them. -/
structure Fits (table : SchemaTable) (taken : NameTable) : Prop where
  distinct : (Entries.keys table.schemas).Nodup
  held : ∀ name ∈ Entries.keys table.schemas, name ∈ taken.taken
  named : ∀ e ∈ table.names, e.2 ∈ Entries.keys table.schemas

theorem Fits.mono (fits : table.Fits taken) (more : ∀ name ∈ taken.taken, name ∈ after.taken) :
    table.Fits after :=
  ⟨fits.distinct, fun name member => more name (fits.held name member), fits.named⟩

/-- The schemas of a table come under the names that the keys are given, and their pointers are
redirected by all of these names, those of later keys included. -/
theorem ofEntries_spec {entries : Entries Schema}
    (built : ofEntries entries taken = .ok (table, after)) :
    nameKeys (Entries.keys entries) taken = .ok (Entries.keys table.schemas, after) ∧
      table.names = (Entries.keys entries).zip (Entries.keys table.schemas) ∧
      table.schemas = (Entries.keys table.schemas).zip
        (entries.map fun e => e.2.mapReferences (redirect table.names)) := by
  obtain ⟨⟨given, final⟩, named, last⟩ := bind_eq_ok.mp built
  obtain ⟨length, -⟩ := nameKeys_spec named
  have given_eq : Entries.keys (given.zip (entries.map fun e =>
      e.2.mapReferences (redirect ((entries.map Prod.fst).zip given)))) = given :=
    List.map_fst_zip (by simp [length])
  cases last
  simp only [given_eq]
  exact ⟨named, rfl, trivial⟩

theorem ofEntries_fits {entries : Entries Schema}
    (built : ofEntries entries taken = .ok (table, after)) : table.Fits after := by
  obtain ⟨named, names, -⟩ := ofEntries_spec built
  obtain ⟨-, distinct, -, held⟩ := nameKeys_spec named
  refine ⟨distinct, fun name member => (held name).mpr (Or.inl member), fun e member => ?_⟩
  rw [names] at member
  exact (List.of_mem_zip member).2

/-- A pointer designates a schema of the table or nothing. -/
theorem Fits.mem_of_resolvePointer (fits : table.Fits taken) {pointer : String}
    (designated : table.resolvePointer pointer = some name) :
    name ∈ Entries.keys table.schemas := by
  unfold resolvePointer at designated
  split at designated
  · cases designated
  · split at designated
    next known =>
      cases designated
      exact Entries.contains_iff.mp known
    · exact fits.named _ (Entries.mem_of_get? designated)

/-- Every schema of a table is that of an entry, with its references redirected. -/
theorem exists_of_mem_ofEntries {entries : Entries Schema} {s : Schema}
    (built : ofEntries entries taken = .ok (table, after)) (entry : (name, s) ∈ table.schemas) :
    ∃ e ∈ entries, s = e.2.mapReferences (redirect table.names) := by
  obtain ⟨-, -, schemas⟩ := ofEntries_spec built
  rw [schemas] at entry
  obtain ⟨e, listed, same⟩ := List.mem_map.mp (List.of_mem_zip entry).2
  exact ⟨e, listed, same.symm⟩

theorem keys_select {schema? : String → Option Schema} {entries : List (String × Schema)}
    (selected : select schema? keys = .ok entries) : Entries.keys entries = keys := by
  induction keys generalizing entries with
  | nil =>
    cases selected
    rfl
  | cons key rest ih =>
    rw [select] at selected
    split at selected
    · cases selected
    next schema found =>
      obtain ⟨later, more, last⟩ := bind_eq_ok.mp selected
      cases last
      rw [Entries.keys_cons, ih more]

/-- A selection takes the schemas of the keys in order. -/
theorem select_eq {schema? : String → Option Schema} {entries : List (String × Schema)}
    (selected : select schema? keys = .ok entries) :
    entries = keys.filterMap fun key => (schema? key).map (key, ·) := by
  induction keys generalizing entries with
  | nil =>
    cases selected
    rfl
  | cons key rest ih =>
    rw [select] at selected
    split at selected
    · cases selected
    next schema found =>
      obtain ⟨later, more, last⟩ := bind_eq_ok.mp selected
      cases last
      simp [found, ← ih more]

/-- What is selected is listed. -/
theorem mem_of_select {schema? : String → Option Schema} {entries : List (String × Schema)}
    (selected : select schema? keys = .ok entries) {e : String × Schema} (member : e ∈ entries) :
    e.1 ∈ keys ∧ schema? e.1 = some e.2 := by
  induction keys generalizing entries with
  | nil =>
    cases selected
    cases member
  | cons key rest ih =>
    rw [select] at selected
    split at selected
    · cases selected
    next schema found =>
      obtain ⟨later, more, last⟩ := bind_eq_ok.mp selected
      cases last
      rcases List.mem_cons.mp member with rfl | inside
      · exact ⟨List.mem_cons_self, found⟩
      · exact (ih more inside).imp_left (List.mem_cons_of_mem _)

end SchemaTypes.SchemaTable

namespace SchemaTypes.Pass

variable {keys : List String} {schema? : String → Option Schema} {pass : Pass}

/-- A fresh pass has a table of the selected schemas, and nothing else. -/
theorem ofSource_spec (built : ofSource keys schema? = .ok pass) :
    ∃ entries table taken, SchemaTable.select schema? keys = .ok entries ∧
      SchemaTable.ofEntries (Data.Entries.ofList entries) {} = .ok (table, taken) ∧
      pass = { table, taken } := by
  obtain ⟨entries, selected, rest⟩ := bind_eq_ok.mp built
  obtain ⟨⟨table, taken⟩, tabled, last⟩ := bind_eq_ok.mp rest
  cases last
  exact ⟨entries, table, taken, selected, tabled, rfl⟩

theorem ofSource_fits (built : ofSource keys schema? = .ok pass) : pass.table.Fits pass.taken := by
  obtain ⟨entries, table, taken, -, tabled, rfl⟩ := ofSource_spec built
  exact SchemaTable.ofEntries_fits tabled

theorem ofSource_seed (built : ofSource keys schema? = .ok pass) : pass.seed = none := by
  obtain ⟨entries, table, taken, -, -, rfl⟩ := ofSource_spec built
  rfl

/-- Every schema of the table is a listed one, with its references redirected. -/
theorem exists_source (built : ofSource keys schema? = .ok pass) {name : String} {s : Schema}
    (entry : (name, s) ∈ pass.table.schemas) :
    ∃ key ∈ keys, ∃ source, schema? key = some source ∧
      s = source.mapReferences (SchemaTable.redirect pass.table.names) := by
  obtain ⟨entries, table, taken, selected, tabled, rfl⟩ := ofSource_spec built
  obtain ⟨e, listed, same⟩ := SchemaTable.exists_of_mem_ofEntries tabled entry
  obtain ⟨key, found⟩ := SchemaTable.mem_of_select selected (Data.Entries.mem_of_mem_ofList listed)
  exact ⟨e.1, key, e.2, found, same⟩

end SchemaTypes.Pass
