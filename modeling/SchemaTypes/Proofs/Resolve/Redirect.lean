import SchemaTypes.Proofs.Document.Pointer
import SchemaTypes.Proofs.Resolve.SchemaTable

/-!
# Redirected pointers

A pointer to a key of the document is redirected to the name that the key was given, which is an
identifier, and designates the schema of that name. Any other pointer stays, and designates the
schema whose name it spells, if there is one.
-/
namespace SchemaTypes

open Data Document Naming

namespace SchemaTable

variable {table : SchemaTable} {taken after : NameTable} {keys names : List String}
  {entries : Entries Schema} {pointer key name : String}

theorem nameKeys_identifiers (named : nameKeys keys taken = .ok (names, after)) :
    ∀ name ∈ names, isIdentifier name = true := by
  induction keys generalizing taken names with
  | nil =>
    cases named
    exact fun _ member => nomatch member
  | cons key rest ih =>
    rw [nameKeys] at named
    split at named
    · cases named
    next base usable =>
      obtain ⟨⟨later, final⟩, first, last⟩ := bind_eq_ok.mp named
      cases last
      intro name member
      rcases List.mem_cons.mp member with rfl | inside
      · exact NameTable.isIdentifier_freeName (isIdentifier_normalize usable)
      · exact ih first name inside

theorem ofEntries_identifiers (built : ofEntries entries taken = .ok (table, after)) :
    ∀ e ∈ table.names, isIdentifier e.2 = true := by
  obtain ⟨named, names, -⟩ := ofEntries_spec built
  intro e member
  rw [names] at member
  exact nameKeys_identifiers named e.2 (List.of_mem_zip member).2

theorem ofEntries_keys_identifiers (built : ofEntries entries taken = .ok (table, after)) :
    ∀ name ∈ Entries.keys table.schemas, isIdentifier name = true :=
  nameKeys_identifiers (ofEntries_spec built).1

/-- Every key of the entries is given a name. -/
theorem ofEntries_keys (built : ofEntries entries taken = .ok (table, after)) :
    Entries.keys table.names = Entries.keys entries := by
  obtain ⟨named, names, -⟩ := ofEntries_spec built
  rw [names]
  exact List.map_fst_zip (by simp [(nameKeys_spec named).1])

/-- A pointer to a key with a name designates the schema of that name. -/
theorem resolvePointer_redirect (fits : table.Fits taken)
    (identifiers : ∀ e ∈ table.names, isIdentifier e.2 = true)
    (named : Pointer.target pointer = some key) (given : table.nameOf? key = some name) :
    table.resolvePointer (redirect table.names pointer) = some name := by
  have member := Entries.mem_of_get? given
  have redirected : redirect table.names pointer = Pointer.toSchema name := by
    have found : (Pointer.target pointer).bind (fun key => Entries.get? table.names key) =
        some name := by
      rw [named]
      exact given
    rw [redirect, found]
  have key : table.schemas.contains name = true := Entries.contains_iff.mpr (fits.named _ member)
  rw [redirected, resolvePointer, Pointer.target_toSchema (identifiers _ member)]
  simp only [key, if_true]

/-- What a redirected pointer designates is the name of the key that it was for, or that key. -/
theorem exists_key_of_redirect (fits : table.Fits taken)
    (identifiers : ∀ e ∈ table.names, isIdentifier e.2 = true)
    (designated : table.resolvePointer (redirect table.names pointer) = some name) :
    ∃ key, Pointer.target pointer = some key ∧ (table.nameOf? key).getD key = name := by
  cases named : Pointer.target pointer with
  | none =>
    have kept : redirect table.names pointer = pointer := by simp [redirect, named]
    rw [kept, resolvePointer, named] at designated
    cases designated
  | some key =>
    refine ⟨key, rfl, ?_⟩
    cases given : table.nameOf? key with
    | some other =>
      rw [resolvePointer_redirect fits identifiers named given] at designated
      exact Option.some.inj designated
    | none =>
      -- The pointer stays, so the key itself has to be a name of the table.
      have noName : Entries.get? table.names key = none := given
      have kept : redirect table.names pointer = pointer := by simp [redirect, named, noName]
      rw [kept, resolvePointer, named] at designated
      simp only [given] at designated
      split at designated
      · exact Option.some.inj designated
      · cases designated

end SchemaTable

namespace Pass

variable {keys : List String} {schema? : String → Option Schema} {pass : Pass} {key : String}

theorem ofSource_identifiers (built : ofSource keys schema? = .ok pass) :
    ∀ e ∈ pass.table.names, isIdentifier e.2 = true := by
  obtain ⟨entries, table, taken, -, tabled, rfl⟩ := ofSource_spec built
  exact SchemaTable.ofEntries_identifiers tabled

/-- Every listed key is given a name. -/
theorem exists_nameOf (built : ofSource keys schema? = .ok pass) (listed : key ∈ keys) :
    ∃ name, pass.table.nameOf? key = some name := by
  obtain ⟨entries, table, taken, selected, tabled, rfl⟩ := ofSource_spec built
  refine Entries.exists_get? ?_
  rw [SchemaTable.ofEntries_keys tabled, Entries.mem_keys_ofList, SchemaTable.keys_select selected]
  exact listed

end Pass
end SchemaTypes
