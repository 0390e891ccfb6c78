import SchemaTypes.Proofs.Document.Rewriting
import SchemaTypes.Proofs.Resolve.Chain
import SchemaTypes.Proofs.Resolve.Redirect

/-!
# Normalized tables

Naming the schemas of a document loses none of them, and what a pointer designates afterwards is the
schema that it named before. A pointer to a key designates the schema of that key, also where its
spelling is the name that another key was given.
-/
namespace SchemaTypes.SchemaTable

open Data Document Naming

variable {table : SchemaTable} {taken after : NameTable} {keys names : List String}
  {entries : Entries Schema} {pointer key name : String}

/-- How a pointer comes over into a table whose schemas had the keys before. -/
inductive Carries (table : SchemaTable) (keys : List String) (pointer carried : String) : Prop
  /-- A pointer to a key leads to the schema of exactly that key. -/
  | toKey {key name : String} : Pointer.target pointer = some key → key ∈ keys →
    table.nameOf? key = some name → table.resolvePointer carried = some name →
    Carries table keys pointer carried
  /-- Any other pointer stays, and leads to the schema whose name it spells, if there is one. -/
  | kept : (∀ key, Pointer.target pointer = some key → key ∉ keys) → carried = pointer →
    (∀ name, table.resolvePointer pointer = some name ↔
      Pointer.target pointer = some name ∧ name ∈ Entries.keys table.schemas) →
    Carries table keys pointer carried

/-- The table has the schemas of the entries in their order, each under the name that its key was
given and with its pointers carried over. The names are distinct and were free. -/
structure Normalizes (table : SchemaTable) (entries : Entries Schema) (taken : NameTable) :
    Prop where
  distinct : (Entries.keys table.schemas).Nodup
  free : ∀ name ∈ Entries.keys table.schemas, name ∉ taken.taken
  schemas : List.Forall₂ (fun e t => table.nameOf? e.1 = some t.1 ∧
    e.2.Rewrites (table.Carries (Entries.keys entries)) t.2) entries table.schemas

/-! ### Names for all keys -/

theorem exists_nameKeys (usable : ∀ key ∈ keys, normalize key true ≠ "") (taken : NameTable) :
    ∃ names after, nameKeys keys taken = .ok (names, after) := by
  induction keys generalizing taken with
  | nil => exact ⟨[], taken, rfl⟩
  | cons key rest ih =>
    obtain ⟨usableKey, usableRest⟩ := List.forall_mem_cons.mp usable
    rw [nameKeys]
    split
    next nothing => exact absurd nothing usableKey
    next base _ =>
      obtain ⟨names, after, named⟩ := ih usableRest (taken.claim (normalize key true)).2
      exact ⟨_ :: names, after, bind_eq_ok.mpr ⟨(names, after), named, rfl⟩⟩

/-- Every entry stands in the place of its schema, with the name that its key was given. -/
theorem forall₂_zip {names : List String} (f : Schema → Schema)
    (length : names.length = entries.length) :
    List.Forall₂ (fun e t => (e.1, t.1) ∈ (Entries.keys entries).zip names ∧ t.2 = f e.2) entries
      (names.zip (entries.map fun e => f e.2)) := by
  induction entries generalizing names with
  | nil => simp
  | cons e rest ih =>
    cases names with
    | nil => cases length
    | cons name later =>
      refine .cons ⟨List.mem_cons_self, rfl⟩ ?_
      refine (ih (Nat.succ.inj length)).imp fun _ _ found => ?_
      exact ⟨List.mem_cons_of_mem _ found.1, found.2⟩

/-! ### Pointers in the table -/

/-- A pointer to no key designates the schema whose name it spells. -/
theorem resolvePointer_eq_some_iff
    (other : ∀ key, Pointer.target pointer = some key → table.nameOf? key = none) :
    table.resolvePointer pointer = some name ↔
      Pointer.target pointer = some name ∧ name ∈ Entries.keys table.schemas := by
  unfold resolvePointer
  cases named : Pointer.target pointer with
  | none => simp
  | some key =>
    simp only [other key named, Option.some.injEq]
    split
    next known =>
      rw [Option.some.injEq, iff_self_and]
      exact fun same => same ▸ Entries.contains_iff.mp known
    next unknown =>
      refine ⟨nofun, fun found => absurd (Entries.contains_iff.mpr found.2) ?_⟩
      rwa [← found.1]

/-- Redirection carries every pointer over. -/
theorem carries_redirect (fits : table.Fits taken)
    (identifiers : ∀ e ∈ table.names, isIdentifier e.2 = true)
    (keyed : Entries.keys table.names = keys) (pointer : String) :
    table.Carries keys pointer (redirect table.names pointer) := by
  by_cases known : ∃ key ∈ keys, Pointer.target pointer = some key
  · obtain ⟨key, listed, named⟩ := known
    obtain ⟨name, given⟩ := Entries.exists_get? (keyed ▸ listed)
    exact .toKey named listed given (resolvePointer_redirect fits identifiers named given)
  · have unknown key (named : Pointer.target pointer = some key) : key ∉ keys :=
      fun listed => known ⟨key, listed, named⟩
    have nameless key (named : Pointer.target pointer = some key) : table.nameOf? key = none :=
      Entries.get?_eq_none_iff.mpr (keyed ▸ unknown key named)
    refine .kept unknown ?_ fun name => resolvePointer_eq_some_iff nameless
    -- Redirection looks the target up among the keys only, so it finds nothing.
    have nothing : (Pointer.target pointer).bind (fun key => Entries.get? table.names key) = none :=
      Option.bind_eq_none_iff.mpr nameless
    rw [redirect, nothing]

/-- The table that is built from entries is a normalized one. -/
theorem ofEntries_normalizes (distinct : (Entries.keys entries).Nodup)
    (built : ofEntries entries taken = .ok (table, after)) : table.Normalizes entries taken := by
  have keyed : Entries.keys table.names = Entries.keys entries := ofEntries_keys built
  have carries pointer : table.Carries (Entries.keys entries) pointer _ :=
    carries_redirect (ofEntries_fits built) (ofEntries_identifiers built) keyed pointer
  obtain ⟨named, names, schemas⟩ := ofEntries_spec built
  obtain ⟨length, distinctNames, free, -⟩ := nameKeys_spec named
  refine ⟨distinctNames, free, ?_⟩
  rw [schemas]
  refine (forall₂_zip _ (by simpa [Entries.keys] using length)).imp fun e t found => ⟨?_, ?_⟩
  · rw [← names] at found
    exact Entries.get?_of_mem (keyed ▸ distinct) found.1
  · exact found.2 ▸ Schema.rewrites_mapReferences carries e.2

/-- If every key has something to build a name from, the entries have a table, whatever names are
in use. -/
theorem exists_normalizes (distinct : (Entries.keys entries).Nodup)
    (usable : ∀ key ∈ Entries.keys entries, normalize key true ≠ "") (taken : NameTable) :
    ∃ table after, ofEntries entries taken = .ok (table, after) ∧
      table.Normalizes entries taken := by
  obtain ⟨names, after, named⟩ := exists_nameKeys usable taken
  have built : ofEntries entries taken = .ok (_, after) :=
    bind_eq_ok.mpr ⟨(names, after), named, rfl⟩
  exact ⟨_, after, built, ofEntries_normalizes distinct built⟩

/-! ### A litter

The names that two of the keys are given are spelled like other keys: `Pet` is in use from the
start, so `pet` becomes `Pet1`, which is a key as well, and so on.
-/

namespace Litter

def refer (pointer : String) : Schema :=
  .node { reference := some pointer } none none [] [] []

/-- The first schema points to the third one by its key, and to the second one by its name. -/
def pets : Entries Schema := [
  ("pet", .node {} (some [("mother", refer "#/definitions/Pet1")]) none [] [refer "#/Pet2"] []),
  ("Pet", .node { type := some "array" } none (some (refer " #/components/schemas/pet")) [] [] []),
  ("Pet1", .node {} none none [refer "#/Pet"] [] [])]

def used : NameTable := ⟨["Pet"]⟩

/-- The names of the schemas, and what the pointers in them designate. -/
def designations : Option (List String × List (Option String)) :=
  (ofEntries pets used).toOption.map fun (table, _) =>
    (Entries.keys table.schemas,
      (table.schemas.flatMap fun e => e.2.references).map table.resolvePointer)

end Litter

theorem litter_normalizes : (Entries.keys Litter.pets).Nodup ∧
    (∀ key ∈ Entries.keys Litter.pets, normalize key true ≠ "") ∧
    (∃ table after, ofEntries Litter.pets Litter.used = .ok (table, after) ∧
      table.Normalizes Litter.pets Litter.used) ∧
    Litter.designations = some (["Pet1", "Pet2", "Pet11"],
      [some "Pet11", some "Pet2", some "Pet1", some "Pet2"]) := by
  have distinct : (Entries.keys Litter.pets).Nodup := by decide
  have usable : ∀ key ∈ Entries.keys Litter.pets, normalize key true ≠ "" := by decide +kernel
  exact ⟨distinct, usable, exists_normalizes distinct usable Litter.used, by decide +kernel⟩

end SchemaTypes.SchemaTable

/-! ### Tables of passes -/

namespace SchemaTypes.Request

open Data

variable {r : Request} {d : Document} {seed : Option DeclarationSet} {pass : Pass}

/-- The schemas that a request is for, under their keys. A key that is listed again counts once. -/
def entries (r : Request) : Entries Schema :=
  Entries.ofList (r.keys.filterMap fun key => (r.schema? key).map (key, ·))

/-- A request for a document is for all of its schemas. -/
theorem entries_ofDocument (distinct : (Entries.keys d.schemas).Nodup) :
    (ofDocument d).entries = d.schemas := by
  have listed : (Entries.keys d.schemas).filterMap
      (fun key => (Entries.get? d.schemas key).map (key, ·)) = d.schemas := by
    rw [Entries.keys, List.filterMap_map]
    refine (List.filterMap_congr fun e member => ?_).trans List.filterMap_some
    simp [Entries.get?_of_mem distinct member]
  rw [Request.entries, ofDocument, listed, Entries.ofList_of_nodup distinct]

/-- The table of a pass is built from the schemas that the request is for. -/
theorem ofEntries_of_pass (prepared : r.pass seed = .ok pass) :
    ∃ after, SchemaTable.ofEntries r.entries {} = .ok (pass.table, after) := by
  obtain ⟨fresh, built, prepares⟩ := exists_fresh prepared
  obtain ⟨entries, table, after, selected, tabled, rfl⟩ := Pass.ofSource_spec built
  rw [SchemaTable.select_eq selected] at tabled
  exact ⟨after, prepares.table ▸ tabled⟩

/-- A request that has a pass is for the schemas of all of its keys. -/
theorem keys_entries (prepared : r.pass seed = .ok pass) :
    Entries.keys r.entries = r.keys.eraseDups := by
  obtain ⟨fresh, built, -⟩ := exists_fresh prepared
  obtain ⟨entries, table, taken, selected, -, rfl⟩ := Pass.ofSource_spec built
  rw [Request.entries, ← SchemaTable.select_eq selected, Entries.keys_ofList,
    SchemaTable.keys_select selected]

/-- The table of a pass has the schemas that the request is for, under their names. -/
theorem normalizes_of_pass (prepared : r.pass seed = .ok pass) :
    pass.table.Normalizes r.entries {} := by
  obtain ⟨after, built⟩ := ofEntries_of_pass prepared
  exact SchemaTable.ofEntries_normalizes (Entries.nodup_keys_ofList _) built

end SchemaTypes.Request
