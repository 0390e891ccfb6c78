import SchemaTypes.Proofs.Naming.FixedNames
import SchemaTypes.Proofs.Resolve.Chain
import SchemaTypes.Proofs.Resolve.Redirect
import SchemaTypes.Proofs.Resolve.Retargeting

/-!
# Normalizing a normalized document

The names of a table are normalized, distinct and free at the start, so each of them is given to
itself when the schemas of the table are normalized in turn. A pointer that spells such a name is
redirected only then, to where it led before. So the pointers may change, but not what they
designate, and a build of the normalized document comes to the same as one of the document.
-/
namespace SchemaTypes

open Data Document Naming

namespace SchemaTable

variable {table : SchemaTable} {taken after : NameTable} {keys names : List String}
  {entries : Entries Schema} {pointer name : String}

/-! ### Names -/

theorem nameKeys_normalized (named : nameKeys keys taken = .ok (names, after)) :
    ∀ name ∈ names, normalize name true = name := by
  induction keys generalizing taken names with
  | nil =>
    cases named
    exact fun _ member => nomatch member
  | cons key rest ih =>
    rw [nameKeys] at named
    split at named
    · cases named
    next base usable =>
      obtain ⟨⟨later, final⟩, first, last⟩ := bind_eq_ok.mp named
      cases last
      intro name member
      rcases List.mem_cons.mp member with rfl | inside
      · exact normalize_freeName usable taken
      · exact ih first name inside

/-- Naming takes the names that it gives, in their order. -/
theorem nameKeys_taken (named : nameKeys keys taken = .ok (names, after)) :
    after = names.foldl NameTable.reserve taken := by
  induction keys generalizing taken names with
  | nil =>
    cases named
    rfl
  | cons key rest ih =>
    rw [nameKeys] at named
    split at named
    · cases named
    next =>
      obtain ⟨⟨later, final⟩, first, last⟩ := bind_eq_ok.mp named
      cases last
      have takenLater : after = later.foldl NameTable.reserve
          (taken.reserve (taken.freeName (normalize key true))) := ih first
      exact takenLater

/-- Distinct free names that are normalized already are given to themselves. -/
theorem nameKeys_self (normalized : ∀ name ∈ names, normalize name true = name)
    (given : ∀ name ∈ names, name ≠ "") (free : ∀ name ∈ names, name ∉ taken.taken)
    (distinct : names.Nodup) :
    nameKeys names taken = .ok (names, names.foldl NameTable.reserve taken) := by
  induction names generalizing taken with
  | nil => rfl
  | cons name rest ih =>
    obtain ⟨different, distinctRest⟩ := List.nodup_cons.mp distinct
    have same : normalize name true = name := normalized name List.mem_cons_self
    have isFree : name ∉ taken.taken := free name List.mem_cons_self
    have claimed : taken.claim name = (name, taken.reserve name) := by
      rw [NameTable.claim, NameTable.freeName, if_neg (mt NameTable.contains_iff.mp isFree)]
    -- The later names are still free, since they are not the one that was claimed.
    have freeRest : ∀ other ∈ rest, other ∉ (taken.reserve name).taken := by
      intro other member used
      rcases NameTable.mem_reserve.mp used with same | early
      · exact different (same ▸ member)
      · exact free other (List.mem_cons_of_mem _ member) early
    have later := ih (fun other member => normalized other (List.mem_cons_of_mem _ member))
      (fun other member => given other (List.mem_cons_of_mem _ member)) freeRest distinctRest
    rw [nameKeys, same]
    split
    next => exact absurd rfl (given "" List.mem_cons_self)
    next =>
      rw [claimed]
      exact bind_eq_ok.mpr ⟨_, later, rfl⟩

theorem nameKeys_again (named : nameKeys keys taken = .ok (names, after)) :
    nameKeys names taken = .ok (names, after) := by
  obtain ⟨-, distinct, free, -⟩ := nameKeys_spec named
  have given : ∀ name ∈ names, name ≠ "" := by
    rintro name member rfl
    have identifier := nameKeys_identifiers named "" member
    cases identifier
  rw [nameKeys_taken named]
  exact nameKeys_self (nameKeys_normalized named) given free distinct

/-! ### Tables -/

/-- The table in which every schema keeps its name, and pointers are redirected to these names. -/
def renormalized (table : SchemaTable) : SchemaTable where
  names := table.schemas.map fun e => (e.1, e.1)
  schemas := table.schemas.map fun e =>
    (e.1, e.2.mapReferences (redirect (table.schemas.map fun e => (e.1, e.1))))

theorem keys_renormalized (table : SchemaTable) :
    Entries.keys table.renormalized.schemas = Entries.keys table.schemas := by
  simp [renormalized, Entries.keys]

theorem nameOf?_renormalized (table : SchemaTable) (name : String) :
    table.renormalized.nameOf? name =
      if name ∈ Entries.keys table.schemas then some name else none := by
  change Entries.get? (table.schemas.map fun e => (e.1, e.1)) name = _
  induction table.schemas with
  | nil => rfl
  | cons e rest ih =>
    rw [List.map_cons, Entries.get?_cons, Entries.keys_cons]
    by_cases same : e.1 = name
    · simp [same]
    · rw [if_neg same, ih]
      simp [Ne.symm same]

theorem nameKeys_of_ofEntries (built : ofEntries entries taken = .ok (table, after)) :
    nameKeys (Entries.keys table.schemas) taken = .ok (Entries.keys table.schemas, after) :=
  nameKeys_again (ofEntries_spec built).1

/-- The schemas of a table are given the names that they have, and the same names are taken. -/
theorem ofEntries_again (built : ofEntries entries taken = .ok (table, after)) :
    ofEntries table.schemas taken = .ok (table.renormalized, after) := by
  have named := nameKeys_of_ofEntries built
  have names : (table.schemas.map Prod.fst).zip (Entries.keys table.schemas) =
      table.schemas.map fun e => (e.1, e.1) := List.zip_map' ..
  have schemas (f : Schema → Schema) : (Entries.keys table.schemas).zip
      (table.schemas.map fun e => f e.2) = table.schemas.map fun e => (e.1, f e.2) :=
    List.zip_map' ..
  refine bind_eq_ok.mpr ⟨_, named, ?_⟩
  simp only [names, schemas]
  rfl

/-! ### Pointers -/

/-- After the first redirection, what a pointer spells is a name of the table, or else no key of the
document. -/
theorem name_or_no_key_of_redirect (fits : table.Fits taken)
    (identifiers : ∀ e ∈ table.names, isIdentifier e.2 = true) {key : String}
    (spelled : Pointer.target (redirect table.names pointer) = some key) :
    key ∈ Entries.keys table.schemas ∨ table.nameOf? key = none := by
  unfold redirect at spelled
  split at spelled
  next name found =>
    -- The pointer was to a key, and now spells the name of that key.
    obtain ⟨other, -, given⟩ := Option.bind_eq_some_iff.mp found
    have member := Entries.mem_of_get? given
    rw [Pointer.target_toSchema (identifiers _ member)] at spelled
    obtain rfl := Option.some.inj spelled
    exact Or.inl (fits.named _ member)
  next nothing =>
    exact Or.inr (Option.bind_eq_none_iff.mp nothing key spelled)

theorem resolvePointer_of_name {key : String} (spelled : Pointer.target pointer = some key)
    (known : key ∈ Entries.keys table.schemas) : table.resolvePointer pointer = some key := by
  have contained : table.schemas.contains key = true := Entries.contains_iff.mpr known
  rw [resolvePointer, spelled]
  exact if_pos contained

theorem resolvePointer_of_unknown
    (unknown : ∀ key, Pointer.target pointer = some key →
      key ∉ Entries.keys table.schemas ∧ table.nameOf? key = none) :
    table.resolvePointer pointer = none := by
  unfold resolvePointer
  cases spelled : Pointer.target pointer with
  | none => rfl
  | some key =>
    obtain ⟨notName, noKey⟩ := unknown key spelled
    have notContained : ¬ table.schemas.contains key = true := mt Entries.contains_iff.mp notName
    simp only [if_neg notContained, noKey]

/-- A pointer that spells a name is redirected to the schema that it designates already. -/
theorem sameTarget_of_name (again : table.renormalized.Fits after)
    (identifiers : ∀ e ∈ table.renormalized.names, isIdentifier e.2 = true) {key : String}
    (spelled : Pointer.target pointer = some key) (known : key ∈ Entries.keys table.schemas) :
    table.SameTarget table.renormalized pointer (redirect table.renormalized.names pointer) := by
  have given : table.renormalized.nameOf? key = some key := by
    rw [nameOf?_renormalized, if_pos known]
  have after := resolvePointer_redirect again identifiers spelled given
  have before := resolvePointer_of_name spelled known
  refine ⟨after.trans before.symm, fun nothing => ?_⟩
  rw [before] at nothing
  cases nothing

/-- A pointer that spells neither a name nor a key is kept, and designates nothing. -/
theorem sameTarget_of_unknown
    (unknown : ∀ key, Pointer.target pointer = some key →
      key ∉ Entries.keys table.schemas ∧ table.nameOf? key = none) :
    table.SameTarget table.renormalized pointer (redirect table.renormalized.names pointer) := by
  have nameless key (spelled : Pointer.target pointer = some key) :
      table.renormalized.nameOf? key = none := by
    rw [nameOf?_renormalized, if_neg (unknown key spelled).1]
  have kept : redirect table.renormalized.names pointer = pointer := by
    have nothing : (Pointer.target pointer).bind
        (fun key => Entries.get? table.renormalized.names key) = none :=
      Option.bind_eq_none_iff.mpr nameless
    rw [redirect, nothing]
  have before : table.resolvePointer pointer = none := resolvePointer_of_unknown unknown
  have after : table.renormalized.resolvePointer pointer = none := by
    refine resolvePointer_of_unknown fun key spelled => ⟨?_, nameless key spelled⟩
    rw [keys_renormalized]
    exact (unknown key spelled).1
  refine ⟨?_, fun _ => kept⟩
  rw [kept, after, before]

/-- The second redirection keeps what a pointer designates. -/
theorem sameTarget_renormalized (again : table.renormalized.Fits after)
    (identifiers : ∀ e ∈ table.renormalized.names, isIdentifier e.2 = true)
    (redirected : ∀ key, Pointer.target pointer = some key →
      key ∈ Entries.keys table.schemas ∨ table.nameOf? key = none) :
    table.SameTarget table.renormalized pointer (redirect table.renormalized.names pointer) := by
  by_cases known : ∃ key ∈ Entries.keys table.schemas, Pointer.target pointer = some key
  · obtain ⟨key, listed, spelled⟩ := known
    exact sameTarget_of_name again identifiers spelled listed
  · refine sameTarget_of_unknown fun key spelled => ?_
    have foreign : key ∉ Entries.keys table.schemas := fun listed => known ⟨key, listed, spelled⟩
    exact ⟨foreign, (redirected key spelled).resolve_left foreign⟩

theorem retargeted_renormalized (built : ofEntries entries taken = .ok (table, after)) :
    table.Retargeted table.renormalized (redirect table.renormalized.names) := by
  have again := ofEntries_again built
  refine ⟨rfl, fun e member pointer inside => ?_⟩
  obtain ⟨source, -, rewritten⟩ := exists_of_mem_ofEntries built member
  rw [rewritten, Schema.references_mapReferences] at inside
  obtain ⟨first, -, rfl⟩ := List.mem_map.mp inside
  refine sameTarget_renormalized (ofEntries_fits again) (ofEntries_identifiers again) ?_
  intro key spelled
  exact name_or_no_key_of_redirect (ofEntries_fits built) (ofEntries_identifiers built) spelled

end SchemaTable

/-! ### Passes -/

namespace Pass

variable {keys : List String} {schema? : String → Option Schema} {fresh : Pass}

/-- Entries are selected by their keys. -/
theorem select_keys {entries : Entries Schema}
    (found : ∀ e ∈ entries, schema? e.1 = some e.2) :
    SchemaTable.select schema? (Entries.keys entries) = .ok entries := by
  induction entries with
  | nil => rfl
  | cons e rest ih =>
    have first := found e List.mem_cons_self
    have later := ih fun f member => found f (List.mem_cons_of_mem _ member)
    rw [Entries.keys_cons, SchemaTable.select, first]
    exact bind_eq_ok.mpr ⟨rest, later, rfl⟩

theorem ofSource_again (built : ofSource keys schema? = .ok fresh) :
    ofSource (Entries.keys fresh.table.schemas) (Entries.get? fresh.table.schemas) =
      .ok { fresh with table := fresh.table.renormalized } ∧
    fresh.table.Retargeted fresh.table.renormalized
      (SchemaTable.redirect fresh.table.renormalized.names) := by
  have distinct := (ofSource_fits built).distinct
  obtain ⟨entries, table, taken, -, tabled, rfl⟩ := ofSource_spec built
  have selected : SchemaTable.select (Entries.get? table.schemas) (Entries.keys table.schemas) =
      .ok table.schemas := select_keys fun e member => Entries.get?_of_mem distinct member
  have listed : Entries.ofList table.schemas = table.schemas := Entries.ofList_of_nodup distinct
  have again := SchemaTable.ofEntries_again tabled
  refine ⟨bind_eq_ok.mpr ⟨_, selected, ?_⟩, SchemaTable.retargeted_renormalized tabled⟩
  rw [listed]
  exact bind_eq_ok.mpr ⟨_, again, rfl⟩

end Pass

/-! ### Documents -/

namespace Request

/-- Let the schemas of a request have a table, and let a document have the schemas of the table for
its own, under their names there. Normalizing the document gives it the same names in the same
order; and a first pass over it, without names to keep, comes to the same set or to the same error
as one for the request. -/
theorem run_normalized (r : Request) {fresh : Pass}
    (built : Pass.ofSource r.keys r.schema? = .ok fresh) (d : Document)
    (normalized : d.schemas = fresh.table.schemas) :
    (∃ again, Pass.ofDocument d = .ok again ∧
      Entries.keys again.table.schemas = Entries.keys fresh.table.schemas) ∧
    ({ ofDocument d with reserved := r.reserved, prune := r.prune } : Request).run none =
      ({ r with retained := [] } : Request).run none := by
  obtain ⟨builtAgain, retargeted⟩ := Pass.ofSource_again built
  rw [← normalized] at builtAgain
  constructor
  · exact ⟨_, builtAgain, fresh.table.keys_renormalized⟩
  · let pass : Pass := { fresh.retain [] with reserved := r.reserved, prune := r.prune }
    have first : ({ r with retained := [] } : Request).pass none = .ok pass :=
      bind_eq_ok.mpr ⟨fresh, built, rfl⟩
    have second : ({ ofDocument d with reserved := r.reserved, prune := r.prune } : Request).pass
        none = .ok { pass with table := fresh.table.renormalized } :=
      bind_eq_ok.mpr ⟨_, builtAgain, rfl⟩
    have same : ({ pass with table := fresh.table.renormalized } : Pass).run = pass.run :=
      Pass.run_retargeted retargeted
    unfold run
    rw [first, second]
    exact same

/-! ### A catalog

The label is a pointer that spells a name and not the key that the name stands for. It is left as it
is at first, and redirected when the document is normalized again. -/

namespace Catalog

open Zoo

def document : Document :=
  Zoo.document [
    ("pet", object [("tag", pointer "pet-tag"), ("status", status)]),
    ("Pet", allOf [pointer "pet", object [("label",
      .node { reference := some "#/definitions/PetTag" } none none [] [] [])]]),
    ("pet-tag", status)]

def request : Request :=
  { ofDocument document with retained := ["pet"] }

def fresh : Pass :=
  (Pass.ofDocument document).toOption.getD default

def normalized : Document :=
  Zoo.document fresh.table.schemas

def set : DeclarationSet where
  declarations := [
    .record "Pet"
      [.field "tag" "tag" (.reference "PetTag" false) false none,
        .field "status" "status" (.reference "PetStatus" false) false none] none,
    .record "Pet1"
      [.inclusion "Pet", .field "label" "label" (.reference "PetTag" false) false none] none]
  enums := [
    .ofLiterals "PetStatus" ["open", "closed"] none,
    .ofLiterals "PetTag" ["open", "closed"] none]
  referenced := .ofList ["Pet", "PetStatus", "PetTag"]

theorem built : Pass.ofSource request.keys request.schema? = .ok fresh :=
  eq_ok_getD (by decide +kernel)

end Catalog

open Catalog in
theorem catalog_normalized :
    Pass.ofSource request.keys request.schema? = .ok fresh ∧
    normalized.schemas = fresh.table.schemas ∧
    Entries.keys fresh.table.schemas = ["Pet", "Pet1", "PetTag"] ∧
    ({ request with retained := [] } : Request).run none = .ok set ∧
    (∃ again, Pass.ofDocument normalized = .ok again ∧
      Entries.keys again.table.schemas = Entries.keys fresh.table.schemas) ∧
    (ofDocument normalized).run none = .ok set := by
  have yields : ({ request with retained := [] } : Request).run none = .ok set :=
    eq_ok_of_toOption (by decide +kernel)
  obtain ⟨names, same⟩ := request.run_normalized built normalized rfl
  exact ⟨built, rfl, by decide +kernel, yields, names, same.trans yields⟩

end Request
end SchemaTypes
