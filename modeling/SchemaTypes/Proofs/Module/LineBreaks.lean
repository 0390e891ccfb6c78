import SchemaTypes.Proofs.Module.Layout
import SchemaTypes.Proofs.Naming.Identifier
import SchemaTypes.Proofs.Types.Parts

/-!
# Line breaks in a module

A line of a module breaks only where a description or one of the names in it does. Types are spelled
with names only, literals are escaped, and everything else in a line is fixed.
-/
namespace SchemaTypes

open Text (OneLine oneLine_append oneLine_literal)

/-- The name in the line of a member: that of its field, or of what it includes. -/
def Member.name : Member → String
  | .field name .. => name
  | .inclusion name => name

/-- The names that a type is spelled with, without those of the types inside it. -/
def TypeExpr.ownNames : TypeExpr → List String
  | .reference name _ => [name]
  | .record members _ => members.map Member.name
  | .array .. | .union .. | .scalar .. | .any _ => []

namespace Naming

theorem newline_not_mem {cs : List Char} (identifier : isIdentifierChars cs = true) :
    '\n' ∉ cs := by
  intro member
  cases isIdentifierPart_of_mem identifier member

theorem oneLine_of_isIdentifier {name : String} (identifier : isIdentifier name = true) :
    OneLine name :=
  newline_not_mem identifier

end Naming

/-! ### Descriptors -/

@[simp] theorem oneLine_nullMark (nullable : Bool) : OneLine (nullMark nullable) := by
  cases nullable <;> decide

@[simp] theorem oneLine_missingMark (required : Bool) : OneLine (missingMark required) := by
  cases required <;> decide

@[simp] theorem oneLine_keyword (kind : ScalarKind) : OneLine kind.keyword := by
  cases kind <;> decide

theorem Member.oneLine_descriptor_iff {m : Member} :
    OneLine m.descriptor ↔ OneLine m.name ∧ ∀ t ∈ m.fieldType, OneLine t.descriptor := by
  cases m with
  | field name key type required description =>
    simp +decide [descriptor, Member.name, fieldType, and_comm]
  | inclusion name => simp +decide [descriptor, Member.name, fieldType]

theorem Member.oneLine_listDescriptor_iff {ms : List Member} :
    OneLine (listDescriptor ms) ↔ ∀ m ∈ ms, OneLine m.descriptor := by
  induction ms with
  | nil => simp +decide
  | cons m rest ih => simp [listDescriptor, ih]

theorem TypeExpr.oneLine_laterDescriptor_iff {ts : List TypeExpr} :
    OneLine (laterDescriptor ts) ↔ ∀ t ∈ ts, OneLine t.descriptor := by
  induction ts with
  | nil => simp +decide
  | cons t rest ih => simp +decide [laterDescriptor, ih]

theorem TypeExpr.oneLine_unionDescriptor_iff {ts : List TypeExpr} :
    OneLine (unionDescriptor ts) ↔ ∀ t ∈ ts, OneLine t.descriptor := by
  cases ts with
  | nil => simp +decide
  | cons t rest => simp [unionDescriptor, oneLine_laterDescriptor_iff]

theorem Member.oneLine_members_iff {ms : List Member} :
    (∀ m ∈ ms, OneLine m.name ∧ ∀ t ∈ m.fieldType, OneLine t.descriptor) ↔
      (∀ name ∈ ms.map Member.name, OneLine name) ∧
        ∀ t ∈ ms.filterMap Member.fieldType, OneLine t.descriptor := by
  simp only [List.forall_mem_map, List.mem_filterMap, forall_exists_index, and_imp]
  constructor
  · exact fun each => ⟨fun m member => (each m member).1,
      fun t m member typed => (each m member).2 t typed⟩
  · exact fun ⟨names, types⟩ m member => ⟨names m member, fun t typed => types t m member typed⟩

theorem TypeExpr.oneLine_descriptor_iff_types (t : TypeExpr) :
    OneLine t.descriptor ↔
      (∀ name ∈ t.ownNames, OneLine name) ∧ ∀ u ∈ t.types, OneLine u.descriptor := by
  cases t with
  | reference name nullable => simp [descriptor, ownNames, types]
  | record members nullable =>
    simp only [ownNames, types, ← Member.oneLine_members_iff, ← Member.oneLine_descriptor_iff,
      ← Member.oneLine_listDescriptor_iff]
    simp +decide [descriptor]
  | array element nullable =>
    simp only [descriptor]
    split <;> simp +decide [ownNames, types]
  | union members nullable =>
    simp only [ownNames, types, ← oneLine_unionDescriptor_iff, descriptor]
    split <;> simp +decide
  | scalar kind nullable => simp [descriptor, ownNames, types]
  | any nullable => simp +decide [descriptor, ownNames, types]

/-- A type breaks the line only with a name of one of its parts. -/
theorem TypeExpr.oneLine_descriptor_iff (t : TypeExpr) :
    OneLine t.descriptor ↔ ∀ u, t.Part u → ∀ name ∈ u.ownNames, OneLine name := by
  induction t using TypeExpr.partInduction with
  | step t ih =>
    rw [oneLine_descriptor_iff_types, TypeExpr.forall_part_iff]
    exact and_congr_right fun _ => forall₂_congr ih

/-! ### Declarations -/

theorem Member.oneLine_lines_iff {m : Member} (told : ∀ text ∈ m.description, OneLine text) :
    (∀ line ∈ m.lines, OneLine line) ↔
      OneLine m.name ∧ ∀ t ∈ m.fieldType, OneLine t.descriptor := by
  cases m with
  | inclusion name => simp +decide [lines, Member.name, fieldType]
  | field name key type required description =>
    have indent : OneLine "    " := by decide
    have comment : ∀ line ∈ commentLines "    " description, OneLine line :=
      oneLine_commentLines told indent
    rw [lines, List.forall_mem_append, and_iff_right comment, List.forall_mem_singleton]
    simp +decide [Member.name, fieldType, and_comm]

theorem Declaration.oneLine_bodyLines_iff {d : Declaration}
    (toldInside : ∀ m ∈ d.members, ∀ text ∈ m.description, OneLine text) :
    (∀ line ∈ d.bodyLines, OneLine line) ↔ OneLine d.name ∧
      (∀ name ∈ d.members.map Member.name, OneLine name) ∧ ∀ t ∈ d.types, OneLine t.descriptor := by
  cases d with
  | record name ms description =>
    have inside : (∀ line ∈ ms.flatMap Member.lines, OneLine line) ↔
        (∀ name ∈ ms.map Member.name, OneLine name) ∧
          ∀ t ∈ ms.filterMap Member.fieldType, OneLine t.descriptor := by
      rw [List.forall_mem_flatMap, ← Member.oneLine_members_iff]
      exact forall₂_congr fun m member => Member.oneLine_lines_iff (toldInside m member)
    rw [bodyLines, List.forall_mem_cons, List.forall_mem_append, inside]
    simp +decide [Declaration.name, members, types]
  | union name ts description =>
    simp +decide [bodyLines, body.eq_def, Declaration.name, members, types,
      TypeExpr.oneLine_unionDescriptor_iff]
  | array name element nullable description =>
    have array := TypeExpr.oneLine_descriptor_iff_types (.array element false)
    simp only [TypeExpr.ownNames, TypeExpr.types] at array
    simp +decide [bodyLines, body.eq_def, Declaration.name, members, types, array]
  | scalar | any => simp +decide [bodyLines, body.eq_def, Declaration.name, members, types]

theorem Declaration.oneLine_lines_iff {d : Declaration}
    (told : ∀ text ∈ d.description, OneLine text)
    (toldInside : ∀ m ∈ d.members, ∀ text ∈ m.description, OneLine text) :
    (∀ line ∈ d.lines, OneLine line) ↔ OneLine d.name ∧
      (∀ name ∈ d.members.map Member.name, OneLine name) ∧ ∀ t ∈ d.types, OneLine t.descriptor := by
  have blank : OneLine "" := by decide
  rw [lines, List.forall_mem_cons, List.forall_mem_append, and_iff_right blank,
    and_iff_right (oneLine_commentLines told blank), oneLine_bodyLines_iff toldInside]

/-- Where the other names stay on one line, a declaration breaks a line only with a field. -/
theorem Declaration.oneLine_lines_iff_fields {d : Declaration}
    (told : ∀ text ∈ d.description, OneLine text)
    (toldInside : ∀ m ∈ d.members, ∀ text ∈ m.description, OneLine text) (named : OneLine d.name)
    (mentioned : ∀ name, d.Mentions name → OneLine name) :
    (∀ line ∈ d.lines, OneLine line) ↔
      ∀ ms, d.HasBody ms → ∀ m ∈ ms, ∀ name ∈ m.fieldName, OneLine name := by
  have oneName {ms : List Member} (body : d.HasBody ms)
      (fields : ∀ m ∈ ms, ∀ name ∈ m.fieldName, OneLine name) :
      ∀ name ∈ ms.map Member.name, OneLine name := by
    intro name listed
    obtain ⟨m, member, rfl⟩ := List.mem_map.mp listed
    cases m with
    | field name => exact fields _ member name rfl
    | inclusion name => exact mentioned name (body.mentions member)
  rw [oneLine_lines_iff told toldInside, and_iff_right named]
  constructor
  · rintro ⟨own, below⟩ ms body m member name found
    have inside : name ∈ ms.map Member.name := by
      cases m with
      | field => exact Option.mem_some.mp found ▸ List.mem_map_of_mem member
      | inclusion => cases found
    cases body with
    | own => exact own name inside
    | inline typed part => exact (TypeExpr.oneLine_descriptor_iff _).mp (below _ typed) _ part name inside
  · intro fields
    constructor
    · cases d with
      | record n ms description =>
        exact oneName (.own n ms description) (fields ms (.own n ms description))
      | _ => nofun
    · intro t typed
      refine (TypeExpr.oneLine_descriptor_iff t).mpr fun u part name own => ?_
      cases u with
      | reference other nullable =>
        rw [List.mem_singleton.mp own]
        exact mentioned other
          (Declaration.mentions_of_types typed (part.mentions (.reference other nullable)))
      | record ms nullable =>
        have body : d.HasBody ms := .inline typed part
        exact oneName body (fields ms body) name own
      | _ => cases own

/-! ### Enums and sets -/

theorem EnumDeclaration.oneLine_memberTexts {ms : List EnumMember}
    (identifiers : ∀ m ∈ ms, OneLine m.identifier) : ∀ line ∈ memberTexts ms, OneLine line := by
  fun_induction memberTexts ms with
  | case1 => exact List.forall_mem_nil _
  | case2 m =>
    simpa +decide [oneLine_literal] using identifiers
  | case3 m rest _ ih =>
    obtain ⟨first, later⟩ := List.forall_mem_cons.mp identifiers
    refine List.forall_mem_cons.mpr ⟨?_, ih later⟩
    simp +decide [oneLine_literal, first]

/-- The literals of an enum do not break its lines. -/
theorem EnumDeclaration.oneLine_lines {e : EnumDeclaration} (summary : IsSummary e.description)
    (named : OneLine e.name) (identifiers : ∀ m ∈ e.members, OneLine m.identifier) :
    ∀ line ∈ e.lines, OneLine line := by
  have blank : OneLine "" := by decide
  rw [lines, List.forall_mem_cons, List.forall_mem_append, List.forall_mem_cons,
    List.forall_mem_append]
  refine ⟨blank, oneLine_commentLines summary.oneLine blank, ?_, oneLine_memberTexts identifiers, ?_⟩
  · simpa +decide using named
  · decide

/-- If all names but those of fields stay on one line, so do the lines of the module, unless the
name of a field in one of the bodies breaks. -/
theorem DeclarationSet.Summarized.oneLine_lines_iff {set : DeclarationSet}
    (summarized : set.Summarized) (named : ∀ name ∈ set.names, OneLine name)
    (mentioned : ∀ d ∈ set.declarations, ∀ name, d.Mentions name → OneLine name)
    (identifiers : ∀ e ∈ set.enums, ∀ m ∈ e.members, OneLine m.identifier) :
    (∀ line ∈ set.lines, OneLine line) ↔
      ∀ ms, set.HasBody ms → ∀ m ∈ ms, ∀ name ∈ m.fieldName, OneLine name := by
  have header : ∀ line ∈ headerLines, OneLine line := by decide
  have enums : ∀ line ∈ set.enums.flatMap EnumDeclaration.lines, OneLine line := by
    rw [List.forall_mem_flatMap]
    exact fun e member => EnumDeclaration.oneLine_lines (summarized.enums e member)
      (named _ (List.mem_append_right _ (List.mem_map_of_mem member))) (identifiers e member)
  have types d (member : d ∈ set.declarations) :=
    Declaration.oneLine_lines_iff_fields (summarized.declarations d member).oneLine
      (fun m inside => (summarized.members d member m inside).oneLine)
      (named _ (List.mem_append_left _ (List.mem_map_of_mem member))) (mentioned d member)
  rw [lines, List.forall_mem_append, List.forall_mem_append, and_iff_right header,
    and_iff_left enums, List.forall_mem_flatMap, forall₂_congr types]
  constructor
  · rintro each ms ⟨d, member, body⟩
    exact each d member ms body
  · exact fun each d member ms body => each ms ⟨d, member, body⟩

end SchemaTypes
