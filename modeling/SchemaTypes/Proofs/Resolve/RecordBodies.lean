import SchemaTypes.Proofs.Naming.FieldName
import SchemaTypes.Proofs.Resolve.Chain
import SchemaTypes.Proofs.Resolve.Declared

/-!
# Names in the bodies of records

The inclusions in a body have distinct names, and so have its fields, unless two keys of a node
without `allOf` differ in outer blanks only. Merged bodies drop repeated names, and escaping tells
any two trimmed keys apart.
-/
namespace SchemaTypes

open Data Naming Resolve

/-- The property key that a field was made from, nothing for an inclusion. -/
def Member.fieldKey : Member → Option String
  | .field _ key .. => some key
  | .inclusion _ => none

/-! ### Keys of schemas -/

namespace Schema

variable {s : Schema}

/-- The keys of a node's own properties differ in more than outer blanks. -/
def OwnKeysApart (s : Schema) : Prop :=
  ∀ ps, s.properties = some ps → (ps.map fun p => Text.trim p.1).Nodup

/-- At every node of the schema, the keys of the properties differ in more than outer blanks. -/
def KeysApart (s : Schema) : Prop :=
  ∀ c, s.Contains c → c.OwnKeysApart

theorem keysApart_iff : s.KeysApart ↔ s.OwnKeysApart ∧ ∀ c ∈ s.children, c.KeysApart :=
  forall_contains_iff

theorem KeysApart.mapReferences (apart : s.KeysApart) (g : String → String) :
    (s.mapReferences g).KeysApart := by
  intro c contained ps given
  obtain ⟨node, below, rfl⟩ := contained.of_mapReferences
  rw [properties_mapReferences] at given
  obtain ⟨original, found, rfl⟩ := Option.map_eq_some_iff.mp given
  rw [List.map_map]
  exact apart node below original found

end Schema

/-! ### Bodies -/

namespace Scope

variable {scope : Scope} {c : Schema} {ms : List Member} {typeName : String} {declaring : Bool}
  {before after : ResolveState}

theorem names_resolveFields {ps : List (String × Schema)} {required : List String}
    (returned : Returns (scope.resolveFields ps required typeName) before ms after) :
    ms.filterMap Member.fieldName = ps.map (fun p => fieldName scope.reserved (Text.trim p.1)) ∧
      ms.filterMap Member.inclusionName = [] := by
  induction ps generalizing before ms with
  | nil =>
    obtain ⟨rfl, -⟩ := resolveFields_nil.mp returned
    exact ⟨rfl, rfl⟩
  | cons p rest ih =>
    obtain ⟨type, mid, fields, -, later, rfl⟩ := resolveFields_cons.mp returned
    obtain ⟨names, inclusions⟩ := ih later
    constructor
    · rw [List.map_cons, ← names]
      rfl
    · exact inclusions

theorem mergeMembers_distinct {ss : List Schema} {merged : List Member}
    (distinct : DistinctMembers merged)
    (returned : Returns (scope.mergeMembers declaring ss typeName merged) before ms after) :
    DistinctMembers ms := by
  induction ss generalizing before merged with
  | nil =>
    obtain ⟨rfl, -⟩ := mergeMembers_nil.mp returned
    exact distinct
  | cons s rest ih =>
    obtain ⟨parts, mid, -, later⟩ := mergeMembers_cons.mp returned
    exact ih (distinct.pushMembers parts) later

theorem flatten_distinct
    (returned : Returns (scope.flatten declaring c typeName) before ms after) :
    DistinctMembers ms := by
  obtain ⟨merged, mid, first, last⟩ := flatten_returns.mp returned
  -- Merging starts from nothing, and the node's own fields are merged in as well.
  have distinct := mergeMembers_distinct .nil first
  rcases last with ⟨-, rfl, -⟩ | ⟨ps, fields, -, -, rfl⟩
  · exact distinct
  · exact distinct.pushMembers fields

theorem Body.inclusions_nodup (body : scope.Body c ms) :
    (ms.filterMap Member.inclusionName).Nodup := by
  cases body with
  | empty => exact List.nodup_nil
  | fields _ returned =>
    rw [(names_resolveFields returned).2]
    exact List.nodup_nil
  | merged returned => exact (flatten_distinct returned).inclusions
  | inclusion => exact List.nodup_singleton _

/-- Only the keys of the node itself could repeat a field. -/
theorem Body.fields_nodup (body : scope.Body c ms) (apart : c.OwnKeysApart) :
    (ms.filterMap Member.fieldName).Nodup := by
  cases body with
  | empty => exact List.nodup_nil
  | @fields ps _ _ _ _ _ given returned =>
    rw [(names_resolveFields returned).1]
    have spelled : ps.map (fun p => fieldName scope.reserved (Text.trim p.1)) =
        (ps.map fun p => Text.trim p.1).map (fieldName scope.reserved) := by
      rw [List.map_map]
      rfl
    rw [spelled]
    refine (apart ps given).map_on fun a first b second same => ?_
    -- Equal names come from keys that are equal when trimmed, and these keys are trimmed already.
    obtain ⟨p, -, rfl⟩ := List.mem_map.mp first
    obtain ⟨q, -, rfl⟩ := List.mem_map.mp second
    simpa only [Text.trim_trim] using fieldName_eq_iff.mp same
  | merged returned => exact (flatten_distinct returned).fields
  | inclusion => exact List.nodup_nil

/-- A field is named after its key, which is trimmed. -/
theorem Body.spelled (body : scope.Body c ms) {m : Member} (member : m ∈ ms) :
    m.fieldName = m.fieldKey.map (fieldName scope.reserved) ∧
      ∀ key ∈ m.fieldKey, Text.trim key = key := by
  rcases body.mem member with ⟨_, _, _, rfl⟩ | ⟨_, _, _, _, p, _, _, _, _, rfl⟩
  · exact ⟨rfl, nofun⟩
  · refine ⟨rfl, fun key found => ?_⟩
    obtain rfl := Option.mem_some.mp found
    exact Text.trim_trim p.1

/-- Two fields of a body have the same name only if they have the same key. -/
theorem Body.fields_nodup_iff (body : scope.Body c ms) :
    (ms.filterMap Member.fieldName).Nodup ↔ (ms.filterMap Member.fieldKey).Nodup := by
  have spelled : ms.filterMap Member.fieldName =
      (ms.filterMap Member.fieldKey).map (fieldName scope.reserved) := by
    rw [List.map_filterMap]
    exact List.filterMap_congr fun m member => (body.spelled member).1
  rw [spelled]
  refine ⟨fun distinct => distinct.of_map _, fun distinct => ?_⟩
  refine distinct.map_on fun a first b second same => ?_
  have trimmed {key : String} (inside : key ∈ ms.filterMap Member.fieldKey) :
      Text.trim key = key := by
    obtain ⟨m, member, found⟩ := List.mem_filterMap.mp inside
    exact (body.spelled member).2 key found
  rw [← trimmed first, ← trimmed second]
  exact fieldName_eq_iff.mp same

end Scope

/-! ### First passes -/

namespace Request

variable {r : Request} {set : DeclarationSet} {ms : List Member}

/-- A body of a first pass is made from a node of a listed schema, apart from its references. -/
theorem exists_body (finished : r.run none = .ok set) (body : set.HasBody ms) :
    ∃ key ∈ r.keys, ∃ s, r.schema? key = some s ∧ ∃ g c, (s.mapReferences g).Contains c ∧
      ∃ scope : Scope, scope.Body c ms := by
  obtain ⟨pass, prepared, last⟩ := bind_eq_ok.mp finished
  obtain ⟨name, schema, entry, c, contained, made⟩ :=
    Pass.exists_body_of_run (pass_fits prepared) (earlier_of_pass prepared) last body
  obtain ⟨fresh, built, prepares⟩ := exists_fresh prepared
  rw [prepares.table] at entry
  obtain ⟨key, listed, s, found, rfl⟩ := Pass.exists_source built entry
  exact ⟨key, listed, s, found, _, c, contained, _, made⟩

/-- In every body of a first pass, declared or inline, the inclusions have distinct names, and two
fields of one name have one key. No two fields do where trimming keeps the keys of every node
apart. -/
theorem body_names_nodup (finished : r.run none = .ok set) (body : set.HasBody ms) :
    (ms.filterMap Member.inclusionName).Nodup ∧
      ((ms.filterMap Member.fieldName).Nodup ↔ (ms.filterMap Member.fieldKey).Nodup) ∧
      ((∀ key ∈ r.keys, ∀ s ∈ r.schema? key, s.KeysApart) →
        (ms.filterMap Member.fieldName).Nodup) := by
  obtain ⟨key, listed, s, found, g, c, contained, scope, made⟩ := exists_body finished body
  refine ⟨made.inclusions_nodup, made.fields_nodup_iff, fun apart => ?_⟩
  have keysApart := (apart key listed s found).mapReferences g
  exact made.fields_nodup (keysApart c contained)

end Request

/-! ### Blanks around keys

Outer blanks are dropped from a key, so an entry and a label have one key in two spellings each.
Those of the entry stand in two members of `allOf`, those of the label side by side.
-/

namespace Spelling

def owner : Schema :=
  Zoo.object [("id", Zoo.scalar "integer")]

def entry : Schema :=
  Zoo.allOf [Zoo.object [("type", Zoo.scalar "string")],
    Zoo.object [(" type ", Zoo.scalar "integer"), ("owner", owner)]]

def request : Request :=
  .ofDocument (Zoo.document [("Entry", entry)])

def ownerMembers : List Member :=
  [.field "id" "id" (.scalar .int false) false none]

def entryMembers : List Member :=
  [.field "'type" "type" (.scalar .string false) false none,
    .field "owner" "owner" (.record ownerMembers false) false none]

def entrySet : DeclarationSet :=
  ⟨[.record "Entry" entryMembers none], [], .empty⟩

theorem run_request : request.run none = .ok entrySet :=
  eq_ok_of_toOption (by decide +kernel)

theorem hasBody_ownerMembers : entrySet.HasBody ownerMembers := by
  have inside : .record ownerMembers false ∈ (Declaration.record "Entry" entryMembers none).types :=
    List.mem_of_getElem? (i := 1) rfl
  exact ⟨_, List.mem_singleton.mpr rfl, .inline inside .refl⟩

theorem hasBody_entryMembers : entrySet.HasBody entryMembers :=
  ⟨_, List.mem_singleton.mpr rfl, .own "Entry" entryMembers none⟩

theorem keysApart_scalar (word : String) : (Zoo.scalar word).KeysApart :=
  Schema.keysApart_iff.mpr ⟨nofun, nofun⟩

theorem keysApart_object {ps : List (String × Schema)}
    (apart : (ps.map fun p => Text.trim p.1).Nodup) (below : ∀ p ∈ ps, p.2.KeysApart) :
    (Zoo.object ps).KeysApart := by
  refine Schema.keysApart_iff.mpr ⟨fun qs given => ?_, fun c child => ?_⟩
  · cases given
    exact apart
  · obtain ⟨p, member, rfl⟩ := Zoo.exists_property_of_child child
    exact below p member

theorem keysApart_entry : entry.KeysApart := by
  have first : (Zoo.object [("type", Zoo.scalar "string")]).KeysApart :=
    keysApart_object (List.nodup_singleton _) (by simpa using keysApart_scalar "string")
  have ownerApart : owner.KeysApart :=
    keysApart_object (List.nodup_singleton _) (by simpa using keysApart_scalar "integer")
  have last : (Zoo.object [(" type ", Zoo.scalar "integer"), ("owner", owner)]).KeysApart :=
    keysApart_object (by decide +kernel) (by simpa using ⟨keysApart_scalar "integer", ownerApart⟩)
  refine Schema.keysApart_iff.mpr ⟨nofun, ?_⟩
  simpa [entry, Zoo.allOf, Schema.children, Schema.properties, Schema.items, Schema.allOf,
    Schema.oneOf, Schema.anyOf] using ⟨first, last⟩

/-- The same key in two spellings, side by side. -/
def label : Document :=
  Zoo.document [
    ("Label", Zoo.object [("name", Zoo.scalar "string"), (" name", Zoo.scalar "integer")])]

def labelMembers : List Member :=
  [.field "name" "name" (.scalar .string false) false none,
    .field "name" "name" (.scalar .int false) false none]

def labelSet : DeclarationSet :=
  ⟨[.record "Label" labelMembers none], [], .empty⟩

theorem run_label : (Request.ofDocument label).run none = .ok labelSet :=
  eq_ok_of_toOption (by decide +kernel)

end Spelling

theorem entry_names_nodup : Spelling.request.run none = .ok Spelling.entrySet ∧
    (∀ key ∈ Spelling.request.keys, ∀ s ∈ Spelling.request.schema? key, s.KeysApart) ∧
    (Spelling.entrySet.HasBody Spelling.entryMembers ∧ ["'type", "owner"].Nodup) ∧
    Spelling.entrySet.HasBody Spelling.ownerMembers ∧ ["id"].Nodup := by
  have apart key (listed : key ∈ Spelling.request.keys) s
      (found : s ∈ Spelling.request.schema? key) : s.KeysApart := by
    obtain rfl : key = "Entry" := List.mem_singleton.mp listed
    exact Option.some.inj found ▸ Spelling.keysApart_entry
  have entry := Request.body_names_nodup Spelling.run_request Spelling.hasBody_entryMembers
  have owner := Request.body_names_nodup Spelling.run_request Spelling.hasBody_ownerMembers
  exact ⟨Spelling.run_request, apart, ⟨Spelling.hasBody_entryMembers, entry.2.2 apart⟩,
    Spelling.hasBody_ownerMembers, owner.2.2 apart⟩

/-- Two keys of one node that differ in outer blanks repeat a field. -/
theorem not_always_distinct_fields : ¬ ∀ (d : Document) (set : DeclarationSet)
    (ms : List Member), (Request.ofDocument d).run none = .ok set → set.HasBody ms →
      (ms.filterMap Member.fieldName).Nodup := by
  intro always
  have body : Spelling.labelSet.HasBody Spelling.labelMembers :=
    ⟨_, List.mem_singleton.mpr rfl, .own "Label" Spelling.labelMembers none⟩
  exact absurd (always _ _ _ Spelling.run_label body) (by decide)

end SchemaTypes
