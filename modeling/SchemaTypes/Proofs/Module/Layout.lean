import SchemaTypes.Module.Text
import SchemaTypes.Proofs.Text.Lines

/-!
# The layout of a module

A module is a list of lines: two for its header, then those of each declaration and of each enum.
How many they are depends on the kinds of the declarations, and on what has members and descriptions.
-/
namespace SchemaTypes

open Text (OneLine ofLines ofLines_cons ofLines_append join_eq_ofLines oneLine_append)

/-! ### Lines -/

def headerLines : List String :=
  ["// AUTO-GENERATED FILE. DO NOT MODIFY.",
    "// This file was generated by openapi-typegen-generator."]

/-- The line for a description that there is something to say about. -/
def commentLines (indent : String) (description : Option String) : List String :=
  (describedBy description).toList.map fun text => indent ++ "# " ++ text

def Member.lines : Member → List String
  | .inclusion name => ["    *" ++ name ++ ";"]
  | .field name _ type required description =>
    commentLines "    " description ++
      ["    " ++ type.descriptor ++ " " ++ name ++ missingMark required ++ ";"]

namespace Declaration

/-- A record has a line for each member and one at either end, and any other kind just one. -/
def bodyLines : Declaration → List String
  | .record name members _ =>
    ("public type " ++ name ++ " record \x7b") :: (members.flatMap Member.lines ++ ["\x7d;"])
  | d => [d.body]

def lines (d : Declaration) : List String :=
  "" :: (commentLines "" d.description ++ d.bodyLines)

end Declaration

namespace EnumDeclaration

/-- A comma ends every line but the last one. -/
def memberTexts : List EnumMember → List String
  | [] => []
  | [m] => ["    " ++ m.identifier ++ " = " ++ Text.literal m.value]
  | m :: rest => ("    " ++ m.identifier ++ " = " ++ Text.literal m.value ++ ",") :: memberTexts rest

def lines (e : EnumDeclaration) : List String :=
  "" :: (commentLines "" e.description ++
    ("public enum " ++ e.name ++ " \x7b") :: (memberTexts e.members ++ ["\x7d"]))

end EnumDeclaration

def DeclarationSet.lines (set : DeclarationSet) : List String :=
  headerLines ++ set.declarations.flatMap Declaration.lines ++
    set.enums.flatMap EnumDeclaration.lines

/-! ### The text of the lines -/

section Texts

theorem Member.text_eq_lines (m : Member) : m.text ++ "\n" = "\n" ++ ofLines m.lines := by
  refine String.toList_inj.mp ?_
  cases m with
  | inclusion name => simp [Member.text, Member.lines]
  | field name key type required description =>
    cases found : describedBy description <;>
      simp [Member.text, Member.lines, commentLines, found]

theorem leadText_eq_lines (description : Option String) :
    leadText description = "\n" ++ ofLines ("" :: commentLines "" description) := by
  refine String.toList_inj.mp ?_
  cases found : describedBy description <;> simp [leadText, commentLines, found]

theorem Declaration.body_eq_lines (d : Declaration) : d.body ++ "\n" = ofLines d.bodyLines := by
  cases d with
  | record name members description =>
    -- The members put their line ends in front, and the closing brace does so for the last one.
    have inside := join_eq_ofLines Member.text_eq_lines members
    calc (Declaration.record name members description).body ++ "\n"
        = "public type " ++ name ++ " record \x7b" ++
            (String.join (members.map Member.text) ++ "\n") ++ "\x7d;\n" :=
          -- The equations of `body`, one for each kind, would take long to derive.
          String.toList_inj.mp (by simp [body.eq_def])
      _ = ofLines (Declaration.record name members description).bodyLines := by
          rw [inside]
          exact String.toList_inj.mp (by simp [bodyLines])
  | _ => simp [bodyLines]

theorem Declaration.text_eq_lines (d : Declaration) : d.text ++ "\n" = "\n" ++ ofLines d.lines := by
  calc d.text ++ "\n" = leadText d.description ++ (d.body ++ "\n") := String.append_assoc
    _ = "\n" ++ ofLines d.lines := by
        rw [leadText_eq_lines, body_eq_lines, String.append_assoc, ← ofLines_append, lines,
          List.cons_append]

theorem EnumDeclaration.memberLines_eq_lines (ms : List EnumMember) :
    memberLines ms ++ "\n" = "\n" ++ ofLines (memberTexts ms) := by
  fun_induction memberTexts ms with
  | case1 => rfl
  | case2 m => exact String.toList_inj.mp (by simp [memberLines])
  | case3 m rest more ih =>
    -- `more` says that another member follows, which is what the comma is for.
    calc memberLines (m :: rest) ++ "\n"
        = "\n    " ++ m.identifier ++ " = " ++ Text.literal m.value ++ "," ++
            (memberLines rest ++ "\n") := by
          rw [memberLines, String.append_assoc]
          exact more
      _ = _ := by
          rw [ih]
          exact String.toList_inj.mp (by simp)

theorem EnumDeclaration.text_eq_lines (e : EnumDeclaration) :
    e.text ++ "\n" = "\n" ++ ofLines e.lines := by
  have inside := memberLines_eq_lines e.members
  calc e.text ++ "\n"
      = leadText e.description ++ ("public enum " ++ e.name ++ " \x7b" ++
          (memberLines e.members ++ "\n") ++ "\x7d\n") := String.toList_inj.mp (by simp [text])
    _ = "\n" ++ ofLines e.lines := by
        rw [inside, leadText_eq_lines]
        exact String.toList_inj.mp (by simp [lines])

/-- The text of a module is that of its lines, every one of which is ended. -/
theorem DeclarationSet.moduleText_eq_lines (set : DeclarationSet) :
    set.moduleText = ofLines set.lines := by
  have types := join_eq_ofLines Declaration.text_eq_lines set.declarations
  have enums := join_eq_ofLines EnumDeclaration.text_eq_lines set.enums
  have rest : String.join (set.declarations.map Declaration.text) ++
      (String.join (set.enums.map EnumDeclaration.text) ++ "\n") =
        "\n" ++ ofLines (set.declarations.flatMap Declaration.lines) ++
          ofLines (set.enums.flatMap EnumDeclaration.lines) := by
    rw [enums, ← String.append_assoc, types]
  calc set.moduleText
      = moduleHeader ++ (String.join (set.declarations.map Declaration.text) ++
          (String.join (set.enums.map EnumDeclaration.text) ++ "\n")) := by
        simp only [moduleText, String.append_assoc]
    _ = moduleHeader ++ "\n" ++ ofLines (set.declarations.flatMap Declaration.lines) ++
          ofLines (set.enums.flatMap EnumDeclaration.lines) := by
        simp only [rest, String.append_assoc]
    _ = ofLines set.lines := by
        rw [lines, ofLines_append, ofLines_append]
        rfl

end Texts

/-! ### Numbers of lines -/

def Member.description : Member → Option String
  | .field _ _ _ _ description => description
  | .inclusion _ => none

/-- One line for a description, if there is one. -/
def describedCount (description : Option String) : Nat :=
  if description.isSome then 1 else 0

/-- A record has a line at either end, and one for each member and for the description of each field
that has one. Any other kind has one line. -/
def Declaration.bodyCount : Declaration → Nat
  | .record _ members _ => 2 + members.length + members.countP fun m => m.description.isSome
  | _ => 1

/-- A blank line, the description, and the declaration itself. -/
def Declaration.lineCount (d : Declaration) : Nat :=
  1 + describedCount d.description + d.bodyCount

def EnumDeclaration.lineCount (e : EnumDeclaration) : Nat :=
  1 + describedCount e.description + (2 + e.members.length)

def DeclarationSet.lineCount (set : DeclarationSet) : Nat :=
  2 + (set.declarations.map Declaration.lineCount).sum +
    (set.enums.map EnumDeclaration.lineCount).sum

/-- If there is a description, it says something, and that on one line. -/
def IsSummary (description : Option String) : Prop :=
  ∀ text ∈ description, text ≠ "" ∧ OneLine text

/-- All descriptions that the module shows are summaries. -/
structure DeclarationSet.Summarized (set : DeclarationSet) : Prop where
  declarations : ∀ d ∈ set.declarations, IsSummary d.description
  members : ∀ d ∈ set.declarations, ∀ m ∈ d.members, IsSummary m.description
  enums : ∀ e ∈ set.enums, IsSummary e.description

section Counts

variable {description : Option String} {indent : String}

theorem IsSummary.describedBy_eq (summary : IsSummary description) :
    describedBy description = description := by
  cases description with
  | none => rfl
  | some text =>
    have given := (summary text rfl).1
    simp [describedBy, given]

theorem IsSummary.length_commentLines (summary : IsSummary description) (indent : String) :
    (commentLines indent description).length = describedCount description := by
  rw [commentLines, summary.describedBy_eq]
  cases description <;> rfl

theorem IsSummary.oneLine (summary : IsSummary description) :
    ∀ text ∈ description, OneLine text :=
  fun text given => (summary text given).2

theorem mem_of_mem_describedBy {text : String} (described : text ∈ describedBy description) :
    text ∈ description := by
  cases description with
  | none => exact described
  | some other =>
    simp only [describedBy] at described
    split at described
    · cases described
    · exact described

theorem oneLine_commentLines (told : ∀ text ∈ description, OneLine text) (plain : OneLine indent) :
    ∀ line ∈ commentLines indent description, OneLine line := by
  intro line listed
  obtain ⟨text, described, rfl⟩ := List.mem_map.mp listed
  have given := mem_of_mem_describedBy (Option.mem_toList.mp described)
  have hash : OneLine "# " := by decide
  exact oneLine_append.mpr ⟨oneLine_append.mpr ⟨plain, hash⟩, told text given⟩

theorem Member.length_lines {m : Member} (summary : IsSummary m.description) :
    m.lines.length = 1 + describedCount m.description := by
  cases m with
  | inclusion name => rfl
  | field name key type required description =>
    have comment : (commentLines "    " description).length = describedCount description :=
      summary.length_commentLines _
    rw [lines, List.length_append, comment, Nat.add_comm]
    rfl

theorem Member.length_flatMap_lines {ms : List Member}
    (summaries : ∀ m ∈ ms, IsSummary m.description) :
    (ms.flatMap Member.lines).length =
      ms.length + ms.countP fun m => m.description.isSome := by
  induction ms with
  | nil => rfl
  | cons m rest ih =>
    obtain ⟨first, later⟩ := List.forall_mem_cons.mp summaries
    rw [List.flatMap_cons, List.length_append, length_lines first, ih later, List.length_cons,
      List.countP_cons, describedCount]
    omega

theorem Declaration.length_bodyLines {d : Declaration}
    (summaries : ∀ m ∈ d.members, IsSummary m.description) : d.bodyLines.length = d.bodyCount := by
  cases d with
  | record name members description =>
    have inside : (members.flatMap Member.lines).length =
        members.length + members.countP fun m => m.description.isSome :=
      Member.length_flatMap_lines summaries
    simp only [bodyLines, bodyCount, List.length_cons, List.length_append, List.length_nil, inside]
    omega
  | _ => rfl

theorem Declaration.length_lines {d : Declaration} (summary : IsSummary d.description)
    (summaries : ∀ m ∈ d.members, IsSummary m.description) : d.lines.length = d.lineCount := by
  rw [lines, lineCount, List.length_cons, List.length_append, summary.length_commentLines,
    length_bodyLines summaries]
  omega

theorem EnumDeclaration.length_memberTexts (ms : List EnumMember) :
    (memberTexts ms).length = ms.length := by
  fun_induction memberTexts ms with
  | case1 | case2 => rfl
  | case3 m rest _ ih => rw [List.length_cons, List.length_cons, ih]

theorem EnumDeclaration.length_lines {e : EnumDeclaration} (summary : IsSummary e.description) :
    e.lines.length = e.lineCount := by
  rw [lines, lineCount, List.length_cons, List.length_append, summary.length_commentLines,
    List.length_cons, List.length_append, length_memberTexts, List.length_singleton]
  omega

/-- Summaries take one line each. -/
theorem DeclarationSet.Summarized.length_lines {set : DeclarationSet}
    (summarized : set.Summarized) : set.lines.length = set.lineCount := by
  have types : (set.declarations.flatMap Declaration.lines).length =
      (set.declarations.map Declaration.lineCount).sum := by
    rw [List.length_flatMap]
    exact congrArg List.sum (List.map_congr_left fun d member =>
      Declaration.length_lines (summarized.declarations d member) (summarized.members d member))
  have enums : (set.enums.flatMap EnumDeclaration.lines).length =
      (set.enums.map EnumDeclaration.lineCount).sum := by
    rw [List.length_flatMap]
    exact congrArg List.sum (List.map_congr_left fun e member =>
      EnumDeclaration.length_lines (summarized.enums e member))
  rw [lines, List.length_append, List.length_append, types, enums]
  rfl

end Counts

end SchemaTypes
