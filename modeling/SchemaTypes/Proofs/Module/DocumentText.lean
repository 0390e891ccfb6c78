import SchemaTypes.Proofs.Module.LineBreaks
import SchemaTypes.Proofs.Resolve.LegalNames

/-!
# Text of the document in a module

Descriptions come down to their first lines, literals are escaped, and the names of types, enums and
members are identifiers. Only in the name of a field a line break of the document comes through: it
gets a backslash in front and stays a line break.
-/
namespace SchemaTypes

open Data Naming Resolve

open Text (OneLine firstLine_spec)

/-! ### Names on one line -/

namespace Naming

/-- A line break is escaped with itself. -/
theorem newline_mem_escaped {cs : List Char} : '\n' ∈ cs.flatMap escapeChar ↔ '\n' ∈ cs := by
  have own (c : Char) : '\n' ∈ escapeChar c ↔ '\n' = c := by
    unfold escapeChar
    split <;> simp
  simp [List.mem_flatMap, own]

/-- The name of a field breaks the line exactly if its key does, apart from outer blanks. -/
theorem oneLine_fieldName_iff {reserved : ReservedWords} {key : String} :
    OneLine (fieldName reserved key) ↔ OneLine (Text.trim key) := by
  rw [OneLine, OneLine, fieldName, Text.trim, String.toList_ofList, String.toList_ofList, not_iff_not]
  simp only [fieldNameChars]
  split
  next identifier =>
    have plain := newline_not_mem identifier
    split <;> simp [plain]
  next =>
    rw [List.mem_cons, newline_mem_escaped]
    simp

end Naming

/-! ### Descriptions -/

theorem Schema.isSummary_summary (s : Schema) : IsSummary s.summary := by
  intro text found
  obtain ⟨description, -, first⟩ := Option.bind_eq_some_iff.mp found
  exact firstLine_spec first

theorem Scope.isSummary_fieldDescription (scope : Scope) (property : Schema) :
    IsSummary (scope.fieldDescription property) := by
  intro text found
  simp only [fieldDescription, Option.orElse_eq_orElse, Option.orElse_eq_or, Option.mem_def,
    Option.or_eq_some_iff] at found
  rcases found with own | ⟨-, target⟩
  · exact property.isSummary_summary text own
  · obtain ⟨s, -, given⟩ := Option.bind_eq_some_iff.mp target
    exact s.isSummary_summary text given

theorem Scope.Body.isSummary {scope : Scope} {c : Schema} {ms : List Member}
    (body : scope.Body c ms) {m : Member} (member : m ∈ ms) : IsSummary m.description := by
  rcases body.mem member with ⟨_, _, _, rfl⟩ | ⟨_, _, _, _, p, _, _, _, _, rfl⟩
  · nofun
  · exact scope.isSummary_fieldDescription p.2

theorem Pass.summarized_of_run {pass : Pass} {set : DeclarationSet}
    (fits : pass.table.Fits pass.taken) (first : pass.earlier = .empty)
    (finished : pass.run = .ok set) : set.Summarized := by
  refine ⟨fun d member => ?_, fun d member m inside => ?_, fun e member => ?_⟩
  · obtain ⟨schema, -, same⟩ := exists_schema_of_declaration first finished fits member
    rw [same]
    exact schema.isSummary_summary
  · -- Only a record has members, and those are made from the properties of a schema.
    cases d with
    | record name ms description =>
      obtain ⟨_, _, -, c, -, made⟩ :=
        exists_body_of_run fits first finished ⟨_, member, .own name ms description⟩
      exact made.isSummary inside
    | _ => cases inside
  · obtain ⟨name, schema, -, effect, causes, made⟩ :=
      exists_effect_of_enum first finished member
    cases made with
    | request => nofun
    | own own values description =>
      obtain ⟨-, rfl⟩ := causes.own_spec
      exact schema.isSummary_summary

/-! ### Keys of properties -/

namespace Schema

variable {s : Schema}

/-- The keys of a node's own properties are on one line each, apart from outer blanks. -/
def OwnKeysOneLine (s : Schema) : Prop :=
  ∀ ps, s.properties = some ps → ∀ p ∈ ps, OneLine (Text.trim p.1)

/-- At every node of the schema, the keys of the properties are on one line each. -/
def KeysOneLine (s : Schema) : Prop :=
  ∀ c, s.Contains c → c.OwnKeysOneLine

theorem keysOneLine_iff : s.KeysOneLine ↔ s.OwnKeysOneLine ∧ ∀ c ∈ s.children, c.KeysOneLine :=
  forall_contains_iff

theorem KeysOneLine.mapReferences (plain : s.KeysOneLine) (g : String → String) :
    (s.mapReferences g).KeysOneLine := by
  intro c contained ps given p member
  obtain ⟨node, below, rfl⟩ := contained.of_mapReferences
  rw [properties_mapReferences] at given
  obtain ⟨original, found, rfl⟩ := Option.map_eq_some_iff.mp given
  obtain ⟨q, listed, rfl⟩ := List.mem_map.mp member
  exact plain node below original found q listed

/-- The keys of the fields in a body are those of properties. -/
theorem KeysOneLine.of_body {scope : Scope} {ms : List Member} (plain : s.KeysOneLine)
    {c : Schema} (contained : s.Contains c) (body : scope.Body c ms) {m : Member}
    (member : m ∈ ms) : ∀ key ∈ m.fieldKey, OneLine key := by
  rcases body.mem member with ⟨_, _, _, rfl⟩ | ⟨node, below, ps, given, p, listed, _, _, _, rfl⟩
  · nofun
  · rintro key ⟨⟩
    exact plain node (contained.trans below) ps given p listed

end Schema

/-! ### First passes -/

namespace Request

variable {r : Request} {set : DeclarationSet}

section Run

variable (finished : r.run none = .ok set)
include finished

theorem summarized_of_run : set.Summarized := by
  obtain ⟨pass, prepared, last⟩ := bind_eq_ok.mp finished
  exact Pass.summarized_of_run (pass_fits prepared) (earlier_of_pass prepared) last

theorem oneLine_lines_iff :
    (∀ line ∈ set.lines, OneLine line) ↔
      ∀ ms, set.HasBody ms → ∀ m ∈ ms, ∀ key ∈ m.fieldKey, OneLine key := by
  rw [(summarized_of_run finished).oneLine_lines_iff
    (fun name declared => oneLine_of_isIdentifier (isIdentifier_of_name finished declared))
    (fun d declared name mentioned =>
      oneLine_of_isIdentifier (isIdentifier_of_mentions finished declared mentioned))
    (fun e declared m member =>
      oneLine_of_isIdentifier (isIdentifier_of_enumMember finished declared member))]
  refine forall₂_congr fun ms body => forall₂_congr fun m member => ?_
  obtain ⟨named, trimmed⟩ := fieldName_of_body finished body member
  rw [named]
  cases found : m.fieldKey with
  | none => simp
  | some key =>
    have same : Text.trim key = key := trimmed key found
    simp [oneLine_fieldName_iff, same]

end Run

/-- The module of a first pass has a fixed number of lines of each kind, all of them ended. It has no
line breaks but these exactly if the keys of its fields are on one line each, and none of its lines
breaks where all keys of properties are. -/
theorem module_lines (finished : r.run none = .ok set) :
    set.moduleText = Text.ofLines set.lines ∧ set.lines.length = set.lineCount ∧
      (set.moduleText.toList.count '\n' = set.lineCount ↔
        ∀ ms, set.HasBody ms → ∀ m ∈ ms, ∀ key ∈ m.fieldKey, OneLine key) ∧
      ((∀ key ∈ r.keys, ∀ s ∈ r.schema? key, s.KeysOneLine) →
        ∀ line ∈ set.lines, OneLine line) := by
  have text := set.moduleText_eq_lines
  have number := (summarized_of_run finished).length_lines
  have plain_iff := oneLine_lines_iff finished
  refine ⟨text, number, ?_, fun plain => plain_iff.mpr fun ms body m member => ?_⟩
  · rw [text, ← number, Text.count_ofLines_eq_length_iff]
    exact plain_iff
  · -- The schema of a body is one of the document, with other references and the same keys.
    obtain ⟨key, listed, s, found, g, c, contained, scope, made⟩ := exists_body finished body
    exact ((plain key listed s found).mapReferences g).of_body contained made member

end Request

/-! ### Notes

The first document has line breaks in descriptions, in a literal and at the end of a key. In the
second one a line break stands inside a key. -/

namespace Notes

open Zoo

def request : Request :=
  .ofDocument <| document [
    ("Note", .node { description := some "A note.\nNobody reads on." }
      (some [
        ("title\n", .node { type := some "string", description := some "On top\nof it." } none none
          [] [] []),
        ("place", object [("town", scalar "string")])]) none [] [] []),
    ("Break", .node { type := some "string", literals := [.text "a\nb"] } none none [] [] [])]

def set : DeclarationSet where
  declarations := [
    .record "Note" [
      .field "title" "title" (.scalar .string false) false (some "On top"),
      .field "place" "place"
        (.record [.field "town" "town" (.scalar .string false) false none] false) false none]
      (some "A note.")]
  enums := [⟨"Break", [⟨"BREAK_AB", "a\nb"⟩], none⟩]
  referenced := .empty

theorem run_request : request.run none = .ok set :=
  eq_ok_of_toOption (by decide +kernel)

theorem keysOneLine_leaf (f : Facets) : (Schema.node f none none [] [] []).KeysOneLine :=
  Schema.keysOneLine_iff.mpr ⟨nofun, nofun⟩

theorem keysOneLine_properties {f : Facets} {ps : List (String × Schema)}
    (own : ∀ p ∈ ps, OneLine (Text.trim p.1)) (below : ∀ p ∈ ps, p.2.KeysOneLine) :
    (Schema.node f (some ps) none [] [] []).KeysOneLine := by
  refine Schema.keysOneLine_iff.mpr ⟨fun qs given => ?_, fun c child => ?_⟩
  · cases given
    exact own
  · obtain ⟨p, member, rfl⟩ := exists_property_of_child child
    exact below p member

theorem keysOneLine_request :
    ∀ key ∈ request.keys, ∀ s ∈ request.schema? key, s.KeysOneLine := by
  have town : (scalar "string").KeysOneLine := keysOneLine_leaf _
  have place : (object [("town", scalar "string")]).KeysOneLine :=
    keysOneLine_properties (by decide +kernel) (List.forall_mem_singleton.mpr town)
  have keys : request.keys = ["Note", "Break"] := rfl
  rw [keys]
  refine List.forall_mem_cons.mpr ⟨?_, List.forall_mem_singleton.mpr ?_⟩
  · rintro s ⟨⟩
    exact keysOneLine_properties (by decide +kernel)
      (List.forall_mem_cons.mpr ⟨keysOneLine_leaf _, List.forall_mem_singleton.mpr place⟩)
  · rintro s ⟨⟩
    exact keysOneLine_leaf _

def broken : Document :=
  document [("Note", object [("a\nb", scalar "string")])]

def brokenSet : DeclarationSet where
  declarations := [
    .record "Note" [.field "'a\\\nb" "a\nb" (.scalar .string false) false none] none]
  enums := []
  referenced := .empty

theorem run_broken : (Request.ofDocument broken).run none = .ok brokenSet :=
  eq_ok_of_toOption (by decide +kernel)

end Notes

theorem Request.note_lines : Notes.request.run none = .ok Notes.set ∧
    (∀ key ∈ Notes.request.keys, ∀ s ∈ Notes.request.schema? key, s.KeysOneLine) ∧
    Notes.set.moduleText = Text.ofLines Notes.set.lines ∧ Notes.set.lines.length = 13 ∧
    ∀ line ∈ Notes.set.lines, OneLine line := by
  obtain ⟨text, number, -, plain⟩ := Request.module_lines Notes.run_request
  exact ⟨Notes.run_request, Notes.keysOneLine_request, text, number,
    plain Notes.keysOneLine_request⟩

/-- A line break inside a key ends a line of the module. -/
theorem not_always_fixed_lines : ¬ ∀ (d : Document) (set : DeclarationSet),
    (Request.ofDocument d).run none = .ok set →
      set.moduleText.toList.count '\n' = set.lineCount := by
  intro always
  exact absurd (always _ _ Notes.run_broken) (by decide +kernel)

end SchemaTypes
