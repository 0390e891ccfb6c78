import SchemaTypes.Proofs.Module.LineBreaks

/-!
# Declared and inline types

A type is spelled in two places: in its declaration, where a record takes a line for each member, and
inside other types, all on one line. Both spell it the same. A declared record is brought into its
inline form by leaving its descriptions out and putting its lines next to each other.
-/
namespace SchemaTypes

open Naming

open Text (OneLine ofLines ofLines_cons ofLines_append splitOn_of_ofLines)

/-! ### From lines to one line -/

/-- The line without the indentation that the members of a record have. -/
def unindented : List Char → List Char
  | ' ' :: ' ' :: ' ' :: ' ' :: line => line
  | line => line

/-- Is the line one for a description? -/
def isComment (line : List Char) : Bool :=
  (unindented line).head? == some '#'

/-- The lines that are left without the descriptions and without indentation. -/
def plainLines (lines : List (List Char)) : List (List Char) :=
  (lines.filter fun line => !isComment line).map unindented

/-- The text on one line, without its descriptions: a space stands for each line break and the
indentation after it. -/
def onOneLine (s : String) : String :=
  String.ofList ([' '].intercalate (plainLines (s.toList.splitOn '\n')))

/-- The type that a declaration gives a name to. -/
def Declaration.type : Declaration → TypeExpr
  | .record _ members _ => .record members false
  | .union _ members _ => .union members false
  | .array _ element nullable _ => .array element nullable
  | .scalar _ kind nullable _ => .scalar kind nullable
  | .any _ nullable _ => .any nullable

/-- Types are named by identifiers, no union is empty, and the names of fields and the descriptions
stay on one line, at any depth. -/
structure DeclarationSet.Presentable (set : DeclarationSet) : Prop where
  names : ∀ d ∈ set.declarations, isIdentifier d.name = true
  mentioned : ∀ d ∈ set.declarations, ∀ name, d.Mentions name → isIdentifier name = true
  unions : ∀ ts, set.HasUnion ts → ts ≠ []
  fields : ∀ ms, set.HasBody ms → ∀ m ∈ ms, ∀ name ∈ m.fieldName, OneLine name
  descriptions : ∀ d ∈ set.declarations, ∀ text ∈ d.description, OneLine text
  fieldDescriptions : ∀ ms, set.HasBody ms → ∀ m ∈ ms, ∀ text ∈ m.description, OneLine text

/-! ### First characters -/

/-- The text starts like a type: with an identifier or a parenthesis. -/
def StartsType (s : String) : Prop :=
  ∃ c cs, s.toList = c :: cs ∧ (c = '(' ∨ isIdentifierStart c = true)

theorem StartsType.append {s : String} (starts : StartsType s) (t : String) :
    StartsType (s ++ t) := by
  obtain ⟨c, cs, text, start⟩ := starts
  exact ⟨c, cs ++ t.toList, by rw [String.toList_append, text, List.cons_append], start⟩

theorem startsType_of_isIdentifier {name : String} (identifier : isIdentifier name = true) :
    StartsType name := by
  cases chars : name.toList with
  | nil =>
    rw [isIdentifier, chars] at identifier
    cases identifier
  | cons c cs =>
    rw [isIdentifier, chars] at identifier
    exact ⟨c, cs, chars, Or.inr (isIdentifierChars_cons.mp identifier).1⟩

theorem startsType_keyword (kind : ScalarKind) : StartsType kind.keyword := by
  cases kind <;> exact ⟨_, _, rfl, Or.inr rfl⟩

theorem startsType_unionDescriptor {ts : List TypeExpr} (given : ts ≠ [])
    (each : ∀ t ∈ ts, StartsType t.descriptor) : StartsType (TypeExpr.unionDescriptor ts) := by
  cases ts with
  | nil => exact absurd rfl given
  | cons t rest => exact (each t List.mem_cons_self).append _

/-- No descriptor starts with a blank, which could be taken for indentation, or like a
description. -/
theorem TypeExpr.startsType_descriptor (t : TypeExpr)
    (mentioned : ∀ name, t.Mentions name → isIdentifier name = true)
    (unions : ∀ ts nullable, t.Part (.union ts nullable) → ts ≠ []) :
    StartsType t.descriptor := by
  induction t using TypeExpr.partInduction with
  | step t ih =>
    have below u (inside : u ∈ t.types) : StartsType u.descriptor :=
      ih u inside (fun name found => mentioned name (TypeExpr.mentions_of_types inside found))
        fun ts nullable part => unions ts nullable (part.head inside)
    have group (s : String) : StartsType ("(" ++ s) := ⟨'(', s.toList, by simp, Or.inl rfl⟩
    cases t with
    | reference name nullable =>
      exact (startsType_of_isIdentifier (mentioned name (.reference name nullable))).append _
    | record members nullable =>
      have record : StartsType "record \x7b" := ⟨_, _, rfl, Or.inr rfl⟩
      exact ((record.append _).append _).append _
    | array element nullable =>
      rw [descriptor]
      refine StartsType.append (StartsType.append ?_ _) _
      split
      · exact (group _).append _
      · exact below element (List.mem_singleton.mpr rfl)
    | union ts nullable =>
      rw [descriptor]
      split
      · exact (group _).append _
      · exact startsType_unionDescriptor (unions ts nullable .refl) below
    | scalar kind nullable => exact (startsType_keyword kind).append _
    | any nullable =>
      have any : StartsType "anydata" := ⟨_, _, rfl, Or.inr rfl⟩
      exact any.append _

/-! ### Members -/

/-- The member as it is spelled in a declared and in an inline record. -/
def Member.spelling : Member → String
  | .field name _ type required _ => type.descriptor ++ " " ++ name ++ missingMark required ++ ";"
  | .inclusion name => "*" ++ name ++ ";"

namespace Member

variable {m : Member} {ms : List Member}

theorem descriptor_eq_spelling (m : Member) : m.descriptor = " " ++ m.spelling := by
  refine String.toList_inj.mp ?_
  cases m <;> simp [descriptor, spelling]

theorem lines_eq_spelling (m : Member) :
    m.lines = commentLines "    " m.description ++ ["    " ++ m.spelling] := by
  cases m with
  | field name key type required text =>
    have line : "    " ++ type.descriptor ++ " " ++ name ++ missingMark required ++ ";" =
        "    " ++ (type.descriptor ++ " " ++ name ++ missingMark required ++ ";") :=
      String.toList_inj.mp (by simp)
    rw [lines, line, spelling, description]
  | inclusion name =>
    have line : "    *" ++ name ++ ";" = "    " ++ ("*" ++ name ++ ";") :=
      String.toList_inj.mp (by simp)
    rw [lines, line, spelling, description]
    rfl

/-- No member is spelled like a description. -/
theorem exists_spelling (types : ∀ t ∈ m.fieldType, StartsType t.descriptor) :
    ∃ c cs, m.spelling.toList = c :: cs ∧ c ≠ '#' := by
  cases m with
  | field name key type required text =>
    have starts : StartsType (type.descriptor ++ " " ++ name ++ missingMark required ++ ";") :=
      ((((types type rfl).append _).append _).append _).append _
    obtain ⟨c, cs, spelled, start⟩ := starts
    refine ⟨c, cs, spelled, ?_⟩
    rintro rfl
    exact absurd start (by decide)
  | inclusion name => exact ⟨'*', name.toList ++ [';'], by simp [spelling], by decide⟩

end Member

/-! ### Records -/

theorem plainLines_append (lines more : List (List Char)) :
    plainLines (lines ++ more) = plainLines lines ++ plainLines more := by
  rw [plainLines, List.filter_append, List.map_append]
  rfl

theorem plainLines_commentLines (description : Option String) :
    plainLines ((commentLines "    " description).map String.toList) = [] := by
  cases found : describedBy description <;>
    simp [plainLines, commentLines, found, isComment, unindented]

/-- Of the lines for a member, its spelling is left. -/
theorem Member.plainLines_lines {m : Member}
    (types : ∀ t ∈ m.fieldType, StartsType t.descriptor) :
    plainLines (m.lines.map String.toList) = [m.spelling.toList] := by
  obtain ⟨c, cs, spelled, notHash⟩ := exists_spelling types
  have line : ("    " ++ m.spelling).toList = ' ' :: ' ' :: ' ' :: ' ' :: c :: cs := by
    rw [String.toList_append, spelled]
    rfl
  rw [lines_eq_spelling, List.map_append, plainLines_append, plainLines_commentLines, List.nil_append,
    List.map_singleton, line, spelled]
  simp [plainLines, isComment, unindented, notHash]

theorem Member.plainLines_flatMap_lines {ms : List Member}
    (types : ∀ m ∈ ms, ∀ t ∈ m.fieldType, StartsType t.descriptor) :
    plainLines ((ms.flatMap Member.lines).map String.toList) =
      ms.map fun m => m.spelling.toList := by
  induction ms with
  | nil => rfl
  | cons m rest ih =>
    obtain ⟨first, later⟩ := List.forall_mem_cons.mp types
    rw [List.flatMap_cons, List.map_append, plainLines_append, plainLines_lines first, ih later]
    rfl

/-- Members next to each other are spelled as in an inline record. -/
theorem Member.intercalate_spelling (first last : List Char) (ms : List Member) :
    [' '].intercalate (first :: (ms.map (fun m => m.spelling.toList) ++ [last])) =
      first ++ (Member.listDescriptor ms).toList ++ ' ' :: last := by
  induction ms generalizing first with
  | nil => simp [List.intercalate, Member.listDescriptor]
  | cons m rest ih =>
    rw [List.map_cons, List.cons_append, List.intercalate_cons_cons, ih, Member.listDescriptor,
      descriptor_eq_spelling]
    simp

theorem onOneLine_of_ofLines {s : String} {lines : List String} (given : lines ≠ [])
    (ended : s ++ "\n" = ofLines lines) (plain : ∀ line ∈ lines, OneLine line) :
    onOneLine s = String.ofList ([' '].intercalate (plainLines (lines.map String.toList))) := by
  rw [onOneLine, splitOn_of_ofLines given ended plain]

/-- What a declared record is on one line. -/
theorem onOneLine_record {ms : List Member}
    (types : ∀ m ∈ ms, ∀ t ∈ m.fieldType, StartsType t.descriptor)
    (plain : ∀ line ∈ ms.flatMap Member.lines, OneLine line) :
    onOneLine ("record \x7b" ++ String.join (ms.map Member.text) ++ "\n\x7d") =
      (TypeExpr.record ms false).descriptor := by
  have inside := Text.join_eq_ofLines Member.text_eq_lines ms
  have ended : "record \x7b" ++ String.join (ms.map Member.text) ++ "\n\x7d" ++ "\n" =
      ofLines ("record \x7b" :: (ms.flatMap Member.lines ++ ["\x7d"])) := by
    calc _ = "record \x7b" ++ (String.join (ms.map Member.text) ++ "\n") ++ "\x7d\n" :=
          String.toList_inj.mp (by simp)
      _ = _ := by
          rw [inside]
          exact String.toList_inj.mp (by simp)
  have closed : ∀ line ∈ "record \x7b" :: (ms.flatMap Member.lines ++ ["\x7d"]), OneLine line := by
    rw [List.forall_mem_cons, List.forall_mem_append, List.forall_mem_singleton]
    exact ⟨by decide, plain, by decide⟩
  have left : plainLines (("record \x7b" :: (ms.flatMap Member.lines ++ ["\x7d"])).map
      String.toList) =
        "record \x7b".toList :: (ms.map (fun m => m.spelling.toList) ++ ["\x7d".toList]) := by
    have first : plainLines ["record \x7b".toList] = ["record \x7b".toList] := by decide
    have last : plainLines ["\x7d".toList] = ["\x7d".toList] := by decide
    rw [List.map_cons, List.map_append, List.map_singleton, ← List.singleton_append,
      plainLines_append, plainLines_append, first, last, Member.plainLines_flatMap_lines types]
    rfl
  rw [onOneLine_of_ofLines (by simp) ended closed, left, Member.intercalate_spelling]
  refine String.toList_inj.mp ?_
  simp [TypeExpr.descriptor, nullMark]

/-! ### Declarations -/

namespace Declaration

variable {d : Declaration}

theorem types_type (d : Declaration) : d.type.types = d.types := by
  cases d <;> rfl

/-- The bodies and unions of a declaration are those of the parts of its type. -/
theorem HasBody.part {ms : List Member} (body : d.HasBody ms) :
    ∃ nullable, d.type.Part (.record ms nullable) := by
  cases body with
  | own => exact ⟨false, .refl⟩
  | inline inside part => exact ⟨_, part.head ((types_type d).symm ▸ inside)⟩

theorem HasUnion.part {ts : List TypeExpr} (union : d.HasUnion ts) :
    ∃ nullable, d.type.Part (.union ts nullable) := by
  cases union with
  | own => exact ⟨false, .refl⟩
  | inline inside part => exact ⟨_, part.head ((types_type d).symm ▸ inside)⟩

end Declaration

/-- The text of a declaration stands in the module. -/
theorem DeclarationSet.exists_moduleText_eq {set : DeclarationSet} {d : Declaration}
    (declared : d ∈ set.declarations) :
    ∃ before after, set.moduleText = before ++ d.text ++ after := by
  obtain ⟨front, back, split⟩ := List.append_of_mem declared
  refine ⟨moduleHeader ++ String.join (front.map Declaration.text),
    String.join (back.map Declaration.text) ++
      String.join (set.enums.map EnumDeclaration.text) ++ "\n", ?_⟩
  rw [moduleText, split]
  exact String.toList_inj.mp (by simp)

namespace DeclarationSet.Presentable

variable {set : DeclarationSet} {d : Declaration}

/-- The types in the body of a declaration do not look like a description. -/
theorem startsType_descriptor (presentable : set.Presentable) (declared : d ∈ set.declarations)
    {t : TypeExpr} (inside : t ∈ d.types) : StartsType t.descriptor := by
  refine t.startsType_descriptor (fun name found => ?_) fun ts nullable part => ?_
  · exact presentable.mentioned d declared name (Declaration.mentions_of_types inside found)
  · exact presentable.unions ts ⟨d, declared, .inline inside part⟩

theorem oneLine_lines (presentable : set.Presentable) (declared : d ∈ set.declarations) :
    ∀ line ∈ d.lines, OneLine line := by
  have toldInside : ∀ m ∈ d.members, ∀ text ∈ m.description, OneLine text := by
    cases d with
    | record name ms text =>
      exact presentable.fieldDescriptions ms ⟨_, declared, .own name ms text⟩
    | _ => nofun
  have named : OneLine d.name := oneLine_of_isIdentifier (presentable.names d declared)
  refine (Declaration.oneLine_lines_iff_fields (presentable.descriptions d declared) toldInside
    named fun name found => ?_).mpr fun ms body => ?_
  · exact oneLine_of_isIdentifier (presentable.mentioned d declared name found)
  · exact presentable.fields ms ⟨d, declared, body⟩

/-- A declaration spells its type like every other place: a record after its lines are put next to
each other, and any other kind as it stands. -/
theorem spelled_inline (presentable : set.Presentable) (declared : d ∈ set.declarations) :
    (∃ before after, set.moduleText = before ++ d.text ++ after) ∧ ∃ spelled,
      d.text = leadText d.description ++ "public type " ++ d.name ++ " " ++ spelled ++ ";" ∧
      match d with
      | .record .. => (∃ inside, spelled = "record \x7b" ++ inside ++ "\x7d") ∧
          onOneLine spelled = d.type.descriptor
      | _ => spelled = d.type.descriptor := by
  refine ⟨exists_moduleText_eq declared, ?_⟩
  cases d with
  | record name ms text =>
    have types : ∀ m ∈ ms, ∀ t ∈ m.fieldType, StartsType t.descriptor := fun m member t typed =>
      presentable.startsType_descriptor declared (List.mem_filterMap.mpr ⟨m, member, typed⟩)
    have plain : ∀ line ∈ ms.flatMap Member.lines, OneLine line := by
      intro line listed
      refine presentable.oneLine_lines declared line ?_
      simp [Declaration.lines, Declaration.bodyLines, listed]
    refine ⟨"record \x7b" ++ String.join (ms.map Member.text) ++ "\n\x7d", ?_,
      ⟨String.join (ms.map Member.text) ++ "\n", ?_⟩, onOneLine_record types plain⟩
    · exact String.toList_inj.mp (by simp [Declaration.text, Declaration.body.eq_def,
        Declaration.name])
    · exact String.toList_inj.mp (by simp)
  | union | array | scalar | any =>
    refine ⟨_, ?_, rfl⟩
    exact String.toList_inj.mp (by simp [Declaration.text, Declaration.body.eq_def,
      Declaration.name, Declaration.type, TypeExpr.descriptor, nullMark])

end DeclarationSet.Presentable

/-! ### A stable

A horse has a description with a hash, a field with an escaped name, and foals whose type needs
parentheses and has a record inside. -/

namespace Stable

def foal : TypeExpr :=
  .record [.inclusion "Animal", .field "age" "age" (.scalar .int true) false (some "In years.")] false

def foals : TypeExpr :=
  .array (.union [.reference "Horse" true, foal] false) true

def horse : Declaration :=
  .record "Horse" [
    .inclusion "Animal",
    .field "'first\\ name" "first name" (.scalar .string false) true (some "# of the stable."),
    .field "foals" "foals" foals false none] (some "A horse.")

def set : DeclarationSet where
  declarations := [horse, .record "Animal" [] none, .array "Herd" (.reference "Horse" true) true none]
  enums := []
  referenced := .ofList ["Animal", "Horse"]

example : onOneLine "record \x7b\n    *Animal;\n    # # of the stable.\n    string name;\n\x7d" =
    "record \x7b *Animal; string name; \x7d" := by
  decide +kernel

/-- What the parts of the types in a presentable set have to be like. -/
def Fine : TypeExpr → Prop
  | .record ms _ => ∀ m ∈ ms, (∀ name ∈ m.fieldName, OneLine name) ∧
      ∀ text ∈ m.description, OneLine text
  | .union ts _ => ts ≠ []
  | _ => True

instance : DecidablePred Fine
  | .record ms _ => inferInstanceAs (Decidable (∀ m ∈ ms, (∀ name ∈ m.fieldName, OneLine name) ∧
      ∀ text ∈ m.description, OneLine text))
  | .union ts _ => inferInstanceAs (Decidable (ts ≠ []))
  | .reference .. | .array .. | .scalar .. | .any _ => isTrue trivial

theorem fine_of_types {t : TypeExpr} (own : Fine t) (below : ∀ u ∈ t.types, ∀ v, u.Part v → Fine v) :
    ∀ u, t.Part u → Fine u :=
  TypeExpr.forall_part_iff.mpr ⟨own, below⟩

theorem fine_parts : ∀ d ∈ set.declarations, ∀ u, d.type.Part u → Fine u := by
  have scalar (kind : ScalarKind) (nullable : Bool) : ∀ u, (TypeExpr.scalar kind nullable).Part u → Fine u :=
    fine_of_types trivial nofun
  have reference : ∀ u, (TypeExpr.reference "Horse" true).Part u → Fine u :=
    fine_of_types trivial nofun
  have foal : ∀ u, foal.Part u → Fine u :=
    fine_of_types (by decide +kernel) (List.forall_mem_singleton.mpr (scalar .int true))
  have union : ∀ u, (TypeExpr.union [.reference "Horse" true, Stable.foal] false).Part u → Fine u :=
    fine_of_types (by decide +kernel)
      (List.forall_mem_cons.mpr ⟨reference, List.forall_mem_singleton.mpr foal⟩)
  have foals : ∀ u, foals.Part u → Fine u :=
    fine_of_types trivial (List.forall_mem_singleton.mpr union)
  refine List.forall_mem_cons.mpr ⟨?_, List.forall_mem_cons.mpr ⟨?_, List.forall_mem_singleton.mpr ?_⟩⟩
  · exact fine_of_types (by decide +kernel)
      (List.forall_mem_cons.mpr ⟨scalar .string false, List.forall_mem_singleton.mpr foals⟩)
  · exact fine_of_types (by decide +kernel) nofun
  · exact fine_of_types trivial (List.forall_mem_singleton.mpr reference)

theorem presentable_set : set.Presentable where
  names := by decide +kernel
  mentioned d declared name found := by
    have identifiers : ∀ d ∈ set.declarations, ∀ name ∈ d.references, isIdentifier name = true := by
      decide +kernel
    exact identifiers d declared name (Declaration.mem_references_iff.mpr found)
  unions := by
    rintro ts ⟨d, declared, union⟩
    obtain ⟨nullable, part⟩ := union.part
    exact fine_parts d declared _ part
  fields := by
    rintro ms ⟨d, declared, body⟩ m member
    obtain ⟨nullable, part⟩ := body.part
    exact (fine_parts d declared _ part m member).1
  descriptions := by decide +kernel
  fieldDescriptions := by
    rintro ms ⟨d, declared, body⟩ m member
    obtain ⟨nullable, part⟩ := body.part
    exact (fine_parts d declared _ part m member).2

end Stable

theorem horse_spelled_inline : Stable.set.Presentable ∧ Stable.horse ∈ Stable.set.declarations ∧
    ∃ spelled, Stable.horse.text = "\n\n# A horse.\npublic type Horse " ++ spelled ++ ";" ∧
      onOneLine spelled = "record \x7b *Animal; string 'first\\ name; " ++
        "(Horse?|record \x7b *Animal; int? age?; \x7d)[]? foals?; \x7d" := by
  have declared : Stable.horse ∈ Stable.set.declarations := List.mem_cons_self
  obtain ⟨-, spelled, text, -, inline⟩ := Stable.presentable_set.spelled_inline declared
  have lead : leadText Stable.horse.description ++ "public type " ++ Stable.horse.name ++ " " =
      "\n\n# A horse.\npublic type Horse " := by decide +kernel
  have descriptor : Stable.horse.type.descriptor = "record \x7b *Animal; string 'first\\ name; " ++
      "(Horse?|record \x7b *Animal; int? age?; \x7d)[]? foals?; \x7d" := by decide +kernel
  exact ⟨Stable.presentable_set, declared, spelled, by rw [text, lead], by rw [inline, descriptor]⟩

end SchemaTypes
