import SchemaTypes.Proofs.Resolve.Declared
import SchemaTypes.Proofs.Resolve.Grammar
import SchemaTypes.Proofs.Resolve.Idempotence
import SchemaTypes.Proofs.Resolve.Normalization
import SchemaTypes.Proofs.Resolve.Nullability

/-!
# Declarations in document order

A first pass leaves one declaration for each schema, in the order of the document. String enums are
enums instead, and a schema without a shape is left out unless something refers to it.
-/
namespace SchemaTypes

open Data Naming Resolve

/-! ### Enums of schemas -/

def Json.isText : Json → Bool
  | .text _ => true
  | _ => false

/-- A string with a text among its literals. -/
def Schema.isEnum (s : Schema) : Bool :=
  s.isString && s.facets.literals.any Json.isText

namespace Scope

variable {scope : Scope} {s : Schema} {outcome : Outcome} {before after : ResolveState}

/-- Values are read exactly if there is a text among the literals. -/
theorem enumLiterals_values {ls : List Json} {values : List String} {null : Bool}
    (read : scope.enumLiterals ls = .ok (values, null)) :
    values ≠ [] ↔ ls.any Json.isText = true := by
  induction ls generalizing values null with
  | nil =>
    cases read
    simp
  | cons l rest ih =>
    cases l with
    | text value =>
      obtain ⟨⟨later, _⟩, -, last⟩ := bind_eq_ok.mp read
      cases last
      simp [Json.isText]
    | null =>
      obtain ⟨⟨later, _⟩, first, last⟩ := bind_eq_ok.mp read
      cases last
      simpa [Json.isText] using ih first
    | _ => cases read

theorem isString_of_shape {type : Option NodeType} {literals : List Json}
    (named : scope.nodeType s.facets = .ok type) (found : s.shape type = .literals literals) :
    s.isString = true := by
  obtain ⟨plain, noProperties, decided⟩ := Schema.ofType_of_shape found rfl
  cases names_of_nodeType named with
  | string typed => simp [Schema.isString, plain, noProperties, typed]
  | untyped | object =>
    rw [Shape.ofType] at decided
    cases given : s.facets.reference with
    | none =>
      rw [given] at decided
      cases decided
    | some pointer =>
      rw [given] at decided
      cases decided
  | array typed => cases decided
  | scalar typed listed other =>
    rw [Shape.ofType] at decided
    · cases decided
    · simpa using other

/-- A schema is declared as an enum exactly if it has the parts of one. -/
theorem declare_enum_iff (returned : Returns (scope.declare s) before outcome after) :
    outcome = .enum ↔ s.isEnum = true := by
  rw [declare_eq, returns_bind] at returned
  obtain ⟨type, mid, first, last⟩ := returned
  obtain ⟨named, rfl⟩ := returns_lift.mp first
  cases found : s.shape type with
  | literals ls =>
    rw [found] at last
    obtain ⟨⟨values, null⟩, state, read, last⟩ := returns_bind.mp last
    have texts := enumLiterals_values (returns_lift.mp read).1
    rw [Schema.isEnum, isString_of_shape named found, Bool.true_and,
      ← Schema.shape_eq_literals found, ← texts]
    cases values with
    | nil =>
      obtain ⟨rfl, -⟩ := returns_pure.mp last
      simp
    | cons v vs =>
      cases last
      simp
  | _ =>
    have kind := outcomeOf_of_returns last
    rw [found] at kind
    refine iff_of_false ?_ fun isEnum => ?_
    · rintro rfl
      cases kind
    · -- With its literals the string would have another shape.
      obtain ⟨isString, text⟩ := Bool.and_eq_true_iff.mp isEnum
      obtain ⟨l, member, -⟩ := List.any_eq_true.mp text
      have shaped := shape_of_isString named isString (List.ne_nil_of_mem member)
      cases found.symm.trans shaped

end Scope

/-! ### Declared names -/

namespace Pass

open ResolveState DeclarationSet

variable {pass : Pass} {declared referenced : NameSet} {schemas : Entries Schema}
  {outcomes : List (String × Outcome)} {before after : ResolveState} {set : DeclarationSet}

/-- The schema is left as a declaration, given the names that are referenced. -/
def isKept (referenced : NameSet) (p : String × Schema) : Bool :=
  !p.2.isEnum && (!p.2.isShapeless || referenced.contains p.1)

theorem finish_names {name : String} {s : Schema} {outcome : Outcome}
    {rest : List (String × Outcome)}
    (returned : Returns ((pass.scope name).declare s) before outcome after) :
    (((name, outcome) :: rest).filterMap (finish referenced)).map Declaration.name =
      (if isKept referenced (name, s) then [name] else []) ++
        (rest.filterMap (finish referenced)).map Declaration.name := by
  have enum := Scope.declare_enum_iff returned
  have vacuous := Scope.declare_vacuous_iff returned
  cases outcome with
  | declared d =>
    have named : d.name = name := Scope.declare_name returned
    have notEnum : s.isEnum = false := by simpa using enum
    have shaped : s.isShapeless = false := by simpa using vacuous
    simp [finish, isKept, notEnum, shaped, named]
  | enum =>
    have isEnum : s.isEnum = true := enum.mp rfl
    rw [List.filterMap_cons_none rfl]
    simp [isKept, isEnum]
  | vacuous description =>
    have notEnum : s.isEnum = false := by simpa using enum
    have shapeless : s.isShapeless = true := vacuous.mp ⟨description, rfl⟩
    cases met : referenced.contains name with
    | true => simp [finish, isKept, notEnum, shapeless, met, Declaration.name]
    | false => simp [finish, isKept, notEnum, shapeless, met]

/-- What is declared keeps the order of the schemas. -/
theorem DeclaresAll.names_eq (run : pass.DeclaresAll declared schemas before outcomes after) :
    (outcomes.filterMap (finish referenced)).map Declaration.name =
      (schemas.filter fun p => !declared.contains p.1 && isKept referenced p).map Prod.fst := by
  induction run with
  | nil => rfl
  | skip schema known _ ih =>
    rw [ih, List.filter_cons_of_neg]
    simp [NameSet.contains_iff.mpr known]
  | @declare name schema _ _ _ _ _ _ new returned _ ih =>
    have unknown : declared.contains name = false := by simpa [← NameSet.contains_iff] using new
    rw [finish_names returned, ih, List.filter_cons]
    cases isKept referenced (name, schema) <;> simp [unknown]

section Outcomes

variable (fits : pass.table.Fits pass.taken)
  (run : pass.DeclaresAll pass.earlier.declaredNames pass.table.schemas pass.start outcomes after)
include fits run

theorem mem_names_of_isEnum {p : String × Schema} (member : p ∈ pass.table.schemas)
    (new : p.1 ∉ pass.earlier.names) (isEnum : p.2.isEnum = true) : p.1 ∈ after.enums.names := by
  obtain ⟨outcome, _, _, listed, returned⟩ := exists_outcome fits run member new
  obtain rfl := (Scope.declare_enum_iff returned).mpr isEnum
  exact run.mem_names_of_enum (start_held fits) (start_sound pass) listed

/-- What a new declaration mentions is referenced. -/
theorem referenced_of_mentions {d : Declaration} {name : String}
    (new : d ∈ outcomes.filterMap (finish after.referenced)) (mentioned : d.Mentions name) :
    name ∈ after.referenced := by
  have reference := Declaration.mem_references_iff.mpr mentioned
  rcases outcome_of_new fits run new with listed | ⟨description, -, -, same⟩
  · have tracked := (run.of_declared (start_held fits) (start_sound pass) listed).2
    exact (tracked name reference).referenced
  · rw [same] at reference
    cases reference

end Outcomes

end Pass

/-! ### First passes -/

namespace Request

variable {r : Request} {seed : Option DeclarationSet} {pass : Pass} {set : DeclarationSet}

/-- The schemas of a table come in the order of the keys, each under the name of its key. -/
theorem forall₂_of_pass (prepared : r.pass seed = .ok pass) :
    List.Forall₂ (fun key p => pass.table.nameOf? key = some p.1) r.keys.eraseDups
      pass.table.schemas := by
  rw [← keys_entries prepared]
  exact List.forall₂_map_left_iff.mpr
    ((normalizes_of_pass prepared).schemas.imp fun _ _ found => found.1)

/-- Unpruned, a first pass declares the schemas in the order of their keys, except that a string
enum is an enum of its name instead, and that a schema without a shape has to be referenced. All
that the declarations mention is referenced. The schemas are those that the request is for, with
their pointers carried over. -/
theorem declarations_in_order (unpruned : r.prune = false) (finished : r.run none = .ok set) :
    ∃ pass, r.pass none = .ok pass ∧ pass.table.Normalizes r.entries {} ∧
      List.Forall₂ (fun key p => pass.table.nameOf? key = some p.1) r.keys.eraseDups
        pass.table.schemas ∧
      set.declarations.map Declaration.name =
        (pass.table.schemas.filter fun p =>
          !p.2.isEnum && (!p.2.isShapeless || set.referenced.contains p.1)).map Prod.fst ∧
      (∀ p ∈ pass.table.schemas, p.2.isEnum = true →
        (set.enums.map EnumDeclaration.name).count p.1 = 1) ∧
      ∀ d ∈ set.declarations, ∀ name, d.Mentions name → name ∈ set.referenced := by
  obtain ⟨pass, prepared, ran⟩ := bind_eq_ok.mp finished
  have fits := pass_fits prepared
  have first : pass.earlier = .empty := earlier_of_pass prepared
  have unknown name : name ∉ pass.earlier.names := by
    rw [first]
    exact List.not_mem_nil
  obtain ⟨noSeed, asked⟩ := seed_prune_of_pass_none prepared
  obtain ⟨outcomes, after, run, rfl⟩ :=
    Pass.declaresAll_of_unpruned noSeed (asked.trans unpruned) ran
  -- Nothing was declared before, so the declarations are those of the outcomes.
  have new : (pass.assembled outcomes after).declarations =
      outcomes.filterMap (Pass.finish after.referenced) := by
    rw [Pass.assembled, first]
    exact List.nil_append _
  refine ⟨pass, prepared, normalizes_of_pass prepared, forall₂_of_pass prepared, ?_,
    fun p member isEnum => ?_, ?_⟩
  · rw [new, run.names_eq, first]
    rfl
  · rw [Pass.enum_names fits run]
    have declared := Pass.mem_names_of_isEnum fits run member (unknown p.1) isEnum
    exact List.count_eq_one_of_mem (Pass.sound_grows fits run).1.distinct declared
  · rw [new]
    exact fun d member name mentioned => Pass.referenced_of_mentions fits run member mentioned

end Request

open Zoo in
theorem garden_in_order : Garden.request.prune = false ∧
    Garden.request.run none = .ok Garden.set ∧
    ∃ pass, Garden.request.pass none = .ok pass ∧
      pass.table.Normalizes [("bed", object [("state", status)]), ("Bed", pointer "bed"),
        ("BedState", status), ("Gardener", .empty)] {} ∧
      List.Forall₂ (fun key p => pass.table.nameOf? key = some p.1)
        ["bed", "Bed", "BedState", "Gardener"] pass.table.schemas ∧
      ["Bed", "Bed1"] = (pass.table.schemas.filter fun p =>
        !p.2.isEnum && (!p.2.isShapeless || Garden.set.referenced.contains p.1)).map Prod.fst ∧
      (∀ p ∈ pass.table.schemas, p.2.isEnum = true → ["BedState1", "BedState"].count p.1 = 1) ∧
      ∀ d ∈ Garden.set.declarations, ∀ name, d.Mentions name → name ∈ ["Bed", "BedState1"] := by
  obtain ⟨pass, prepared, normalizes, keys, names, enums, referenced⟩ :=
    Request.declarations_in_order rfl Garden.run
  have listed : Garden.request.keys.eraseDups = ["bed", "Bed", "BedState", "Gardener"] := by
    decide +kernel
  rw [listed] at keys
  rw [Garden.request, Request.entries_ofDocument (by decide)] at normalizes
  exact ⟨rfl, Garden.run, pass, prepared, normalizes, keys, names, enums, referenced⟩

end SchemaTypes
