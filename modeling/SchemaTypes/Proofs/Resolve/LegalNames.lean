import SchemaTypes.Proofs.Naming.MemberIdentifier
import SchemaTypes.Proofs.Resolve.EnumOrigin
import SchemaTypes.Proofs.Resolve.RecordBodies
import SchemaTypes.Proofs.Resolve.Redirect

/-!
# Emitted names are identifiers

The schemas of a table have identifiers as their names, and what is put behind a type name on the
way down keeps it an identifier. So every enum is asked for under an identifier, whatever the keys
and the literals of a document are, and every name that a first pass emits is one.
-/
namespace SchemaTypes

open Data Naming Resolve

/-! ### Names on the way down -/

section Names

variable {name suffix : String}

theorem isIdentifier_append (identifier : isIdentifier name = true)
    (parts : ∀ c ∈ suffix.toList, isIdentifierPart c = true) :
    isIdentifier (name ++ suffix) = true := by
  rw [isIdentifier, String.toList_append]
  exact isIdentifierChars_append identifier parts

theorem isIdentifier_item (identifier : isIdentifier name = true) :
    isIdentifier (name ++ "Item") = true :=
  isIdentifier_append identifier (List.all_eq_true.mp rfl)

theorem isIdentifier_variant (identifier : isIdentifier name = true) (n : Nat) :
    isIdentifier (name ++ "Variant" ++ toString n) = true :=
  isIdentifier_numbered (isIdentifier_append identifier (List.all_eq_true.mp rfl)) n

/-- The part for the key may be empty or start with a digit, but the name before it does not. -/
theorem isIdentifier_propertyTypeName (identifier : isIdentifier name = true) (key : String) :
    isIdentifier (propertyTypeName name key) = true := by
  have front : isIdentifier (Naming.normalize name true) = true := by
    rw [isIdentifier, Naming.normalize, String.toList_ofList,
      normalizeChars_of_identifier identifier]
    exact isIdentifierChars_upperFirst identifier
  -- The part for the key stands behind, so all it needs is characters of identifiers.
  refine isIdentifier_append front fun c member => ?_
  rw [Naming.normalize, String.toList_ofList] at member
  exact isIdentifierPart_of_mem_normalizeChars member

theorem isIdentifier_of_isVariant {base : String} (variant : NameTable.IsVariant base name)
    (identifier : isIdentifier base = true) : isIdentifier name = true := by
  rcases variant with rfl | ⟨n, rfl⟩
  · exact identifier
  · exact isIdentifier_numbered identifier n

end Names

/-! ### Requests -/

namespace Scope

variable {scope : Scope}

mutual

/-- Below an identifier, enums are asked for under identifiers. -/
theorem Causes.isIdentifier_request {s : Schema} {typeName q : String} {e : Effect}
    {values : List String} : scope.Causes s typeName e → e = .request q values →
      isIdentifier typeName = true → isIdentifier q = true
  | .reference _ _, asked, _ => nomatch asked
  | .literals _ _, asked, identifier => by
    cases asked
    exact identifier
  | .items _ below, asked, identifier =>
    below.isIdentifier_request asked (isIdentifier_item identifier)
  | .alternative _ _ below, asked, identifier =>
    below.isIdentifier_request asked (isIdentifier_variant identifier _)
  | .field _ _ below, asked, identifier =>
    below.isIdentifier_request asked (isIdentifier_propertyTypeName identifier _)
  | .merged _ contributes, asked, identifier =>
    contributes.isIdentifier_request asked identifier

theorem Contributes.isIdentifier_request {s : Schema} {typeName q : String} {e : Effect}
    {values : List String} : scope.Contributes s typeName e → e = .request q values →
      isIdentifier typeName = true → isIdentifier q = true
  | .member _ below, asked, identifier => below.isIdentifier_request asked identifier
  | .field _ _ below, asked, identifier =>
    below.isIdentifier_request asked (isIdentifier_propertyTypeName identifier _)
  | .inclusion _ _ _ _, asked, _ => nomatch asked

end

theorem DeclarationCauses.isIdentifier_request {s : Schema} {q : String} {values : List String}
    (causes : scope.DeclarationCauses s (.request q values))
    (identifier : isIdentifier scope.schema = true) : isIdentifier q = true := by
  obtain ⟨shape, shaped, causes⟩ := causes
  cases shape with
  | literals =>
    -- A schema of literals has an enum of its own and requests none.
    obtain ⟨_, _, _, -, other⟩ := causes
    cases other
  | _ =>
    have inline : scope.Causes s scope.schema (.request q values) := (causes_iff shaped).mpr causes
    exact inline.isIdentifier_request rfl identifier

end Scope

/-! ### Passes -/

namespace Pass

variable {pass : Pass} {set : DeclarationSet}

theorem ofSource_keys_identifiers {keys : List String} {schema? : String → Option Schema}
    (built : ofSource keys schema? = .ok pass) :
    ∀ name ∈ Entries.keys pass.table.schemas, isIdentifier name = true := by
  obtain ⟨entries, table, taken, -, tabled, rfl⟩ := ofSource_spec built
  exact SchemaTable.ofEntries_keys_identifiers tabled

section Run

variable (first : pass.earlier = .empty) (finished : pass.run = .ok set)
include first finished

/-- With nothing declared before, every declaration has the name and the description of a schema. -/
theorem exists_schema_of_declaration (fits : pass.table.Fits pass.taken) {d : Declaration}
    (declared : d ∈ set.declarations) :
    ∃ schema, (d.name, schema) ∈ pass.table.schemas ∧ d.description = schema.summary := by
  obtain ⟨outcomes, after, run, last⟩ := declaresAll_of_run finished
  have assembled : d ∈ (pass.assembled outcomes after).declarations := by
    rcases last with ⟨rfl, -⟩ | rfl
    · exact declared
    · exact (DeclarationSet.mem_prune_declarations.mp declared).1
  -- Nothing is there from before, so the declaration is the outcome of a schema.
  have new : d ∈ outcomes.filterMap (finish after.referenced) := by
    refine (List.mem_append.mp assembled).resolve_left fun old => ?_
    rw [first] at old
    cases old
  rcases outcome_of_new fits run new with listed | ⟨description, listed, -, same⟩
  · obtain ⟨schema, s, t, owned, entry, -, returned, -⟩ :=
      run.of_mem (start_held fits) (start_sound pass) listed
    exact ⟨schema, entry, (Scope.declare_description returned).1 d rfl⟩
  · obtain ⟨schema, s, t, owned, entry, -, returned, -⟩ :=
      run.of_mem (start_held fits) (start_sound pass) listed
    refine ⟨schema, entry, ?_⟩
    rw [same]
    exact (Scope.declare_description returned).2 description rfl

/-- An enum has an identifier for its name, and members that are named after it. -/
theorem enum_of_run
    (identifiers : ∀ name ∈ Entries.keys pass.table.schemas, isIdentifier name = true)
    {d : EnumDeclaration} (declared : d ∈ set.enums) :
    isIdentifier d.name = true ∧ ∃ values, d = .ofLiterals d.name values d.description := by
  obtain ⟨name, schema, entry, e, causes, made⟩ := exists_effect_of_enum first finished declared
  have identifier : isIdentifier name = true :=
    identifiers name (Entries.mem_keys.mpr ⟨schema, entry⟩)
  cases made with
  | request values variant =>
    exact ⟨isIdentifier_of_isVariant variant (causes.isIdentifier_request identifier), values, rfl⟩
  | own own values description =>
    obtain rfl : own = name := causes.own_eq
    exact ⟨identifier, values, rfl⟩

end Run

end Pass

/-! ### First passes -/

/-- The names in the set are identifiers, at any depth, and the fields have the names that their
keys are escaped to. -/
structure DeclarationSet.Legal (set : DeclarationSet) (reserved : ReservedWords) : Prop where
  names : ∀ name ∈ set.names, isIdentifier name = true
  mentioned : ∀ d ∈ set.declarations, ∀ name, d.Mentions name → isIdentifier name = true
  members : ∀ e ∈ set.enums, ∀ m ∈ e.members, isIdentifier m.identifier = true
  fields : ∀ ms, set.HasBody ms → ∀ m ∈ ms,
    m.fieldName = m.fieldKey.map (Naming.fieldName reserved)

namespace Request

variable {r : Request} {seed : Option DeclarationSet} {pass : Pass} {set : DeclarationSet}

theorem reserved_of_pass (prepared : r.pass seed = .ok pass) : pass.reserved = r.reserved := by
  obtain ⟨fresh, -, last⟩ := bind_eq_ok.mp prepared
  cases seed with
  | none =>
    cases last
    rfl
  | some s =>
    cases last
    rfl

theorem keys_identifiers_of_pass (prepared : r.pass seed = .ok pass) :
    ∀ name ∈ Entries.keys pass.table.schemas, isIdentifier name = true := by
  obtain ⟨fresh, built, prepares⟩ := exists_fresh prepared
  rw [prepares.table]
  exact Pass.ofSource_keys_identifiers built

section Run

variable (finished : r.run none = .ok set)
include finished

theorem isIdentifier_of_enum {e : EnumDeclaration} (declared : e ∈ set.enums) :
    isIdentifier e.name = true ∧ ∃ values, e = .ofLiterals e.name values e.description := by
  obtain ⟨pass, prepared, last⟩ := bind_eq_ok.mp finished
  exact Pass.enum_of_run (earlier_of_pass prepared) last (keys_identifiers_of_pass prepared)
    declared

theorem isIdentifier_of_name {name : String} (declared : name ∈ set.names) :
    isIdentifier name = true := by
  rcases DeclarationSet.mem_names.mp declared with ⟨d, member, rfl⟩ | ⟨e, member, rfl⟩
  · obtain ⟨pass, prepared, last⟩ := bind_eq_ok.mp finished
    obtain ⟨schema, entry, -⟩ := Pass.exists_schema_of_declaration (earlier_of_pass prepared) last
      (pass_fits prepared) member
    exact keys_identifiers_of_pass prepared d.name (Entries.mem_keys.mpr ⟨schema, entry⟩)
  · exact (isIdentifier_of_enum finished member).1

/-- What is mentioned is declared, so it is one of the names. -/
theorem isIdentifier_of_mentions {d : Declaration} (declared : d ∈ set.declarations)
    {name : String} (mentioned : d.Mentions name) : isIdentifier name = true :=
  isIdentifier_of_name finished
    ((r.run_valid (by simp) finished).closed d declared name mentioned)

theorem isIdentifier_of_enumMember {e : EnumDeclaration} (declared : e ∈ set.enums)
    {m : EnumMember} (member : m ∈ e.members) : isIdentifier m.identifier = true := by
  obtain ⟨identifier, values, made⟩ := isIdentifier_of_enum finished declared
  rw [made] at member
  obtain ⟨value, -, rfl⟩ := List.mem_map.mp member
  exact EnumMember.isIdentifier_identifierOf identifier value

/-- The fields of a body are named after their keys, which are trimmed. -/
theorem fieldName_of_body {ms : List Member} (body : set.HasBody ms) {m : Member}
    (member : m ∈ ms) :
    m.fieldName = m.fieldKey.map (Naming.fieldName r.reserved) ∧
      ∀ key ∈ m.fieldKey, Text.trim key = key := by
  obtain ⟨pass, prepared, last⟩ := bind_eq_ok.mp finished
  obtain ⟨name, schema, -, c, -, made⟩ :=
    Pass.exists_body_of_run (pass_fits prepared) (earlier_of_pass prepared) last body
  rw [← reserved_of_pass prepared]
  exact made.spelled member

/-- Whatever the keys of schemas and properties and the literals are, a first pass emits legal
names. -/
theorem run_legal : set.Legal r.reserved :=
  ⟨fun _ => isIdentifier_of_name finished,
    fun _ declared _ => isIdentifier_of_mentions finished declared,
    fun _ declared _ => isIdentifier_of_enumMember finished declared,
    fun _ body _ member => (fieldName_of_body finished body member).1⟩

end Run

end Request

/-! ### Keys and literals that are no identifiers

An empty key, a reserved one, and keys and literals with digits in front, blanks or other letters. -/

namespace Oddities

open Zoo

def literals (values : List String) : Schema :=
  .node { type := some "string", literals := values.map .text } none none [] [] []

def request : Request :=
  .ofDocument <| document [
    ("2fa mode", object [
      ("", .node { type := some "array" } none (some (literals ["", "in use"])) [] [] []),
      ("first-name", .node {} none none [] [literals ["1", "é"], scalar "integer"] []),
      ("type", pointer "höhe")]),
    ("höhe", literals ["2x"])]

def set : DeclarationSet where
  declarations := [
    .record "_2faMode" [
      .field "'" "" (.array (.reference "_2faModeItem" false) false) false none,
      .field "'first\\-name" "first-name"
        (.union [.reference "_2faModeFirstNameVariant1" false, .scalar .int false] false) false none,
      .field "'type" "type" (.reference "HHe" false) false none] none]
  enums := [
    ⟨"_2faModeItem", [⟨"_2FAMODEITEM_", ""⟩, ⟨"_2FAMODEITEM_INUSE", "in use"⟩], none⟩,
    ⟨"_2faModeFirstNameVariant1",
      [⟨"_2FAMODEFIRSTNAMEVARIANT1__1", "1"⟩, ⟨"_2FAMODEFIRSTNAMEVARIANT1_", "é"⟩], none⟩,
    ⟨"HHe", [⟨"HHE__2X", "2x"⟩], none⟩]
  referenced := .ofList ["HHe", "_2faModeFirstNameVariant1", "_2faModeItem"]

theorem run_request : request.run none = .ok set :=
  eq_ok_of_toOption (by decide +kernel)

end Oddities

theorem Request.oddities_legal : Oddities.request.run none = .ok Oddities.set ∧
    Oddities.set.Legal Oddities.request.reserved :=
  ⟨Oddities.run_request, Request.run_legal Oddities.run_request⟩

end SchemaTypes
