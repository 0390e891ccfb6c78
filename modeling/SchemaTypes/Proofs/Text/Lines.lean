import Mathlib.Algebra.Ring.Nat
import Mathlib.Data.List.DropRight
import SchemaTypes.Proofs.Text.Literal
import SchemaTypes.Text.Blank

/-!
# Lines

A text that is made of lines, each of which is ended. Literals and first lines stay on one line,
whatever they are made from.
-/
namespace SchemaTypes.Text

variable {a b s : String} {cs : List Char}

/-- The lines one after the other, each with its end. -/
def ofLines (lines : List String) : String :=
  String.join (lines.map fun line => line ++ "\n")

@[simp] theorem ofLines_nil : ofLines [] = "" := rfl

@[simp] theorem ofLines_cons (line : String) (lines : List String) :
    ofLines (line :: lines) = line ++ "\n" ++ ofLines lines := by
  rw [ofLines, List.map_cons, String.join_cons]
  rfl

@[simp] theorem ofLines_append (lines more : List String) :
    ofLines (lines ++ more) = ofLines lines ++ ofLines more := by
  rw [ofLines, List.map_append, String.join_append]
  rfl

/-- Where each text has its line ends in front, the last line needs one more. -/
theorem join_eq_ofLines {α : Type} {text : α → String} {lines : α → List String}
    (each : ∀ x, text x ++ "\n" = "\n" ++ ofLines (lines x)) (xs : List α) :
    String.join (xs.map text) ++ "\n" = "\n" ++ ofLines (xs.flatMap lines) := by
  induction xs with
  | nil => rfl
  | cons x rest ih =>
    calc String.join ((x :: rest).map text) ++ "\n"
        = text x ++ (String.join (rest.map text) ++ "\n") := by
          rw [List.map_cons, String.join_cons, String.append_assoc]
      _ = text x ++ "\n" ++ ofLines (rest.flatMap lines) := by rw [ih, String.append_assoc]
      _ = "\n" ++ ofLines ((x :: rest).flatMap lines) := by
          rw [each, List.flatMap_cons, ofLines_append, String.append_assoc]

/-! ### Texts on one line -/

/-- No line ends within the text. -/
def OneLine (s : String) : Prop :=
  '\n' ∉ s.toList

instance (s : String) : Decidable (OneLine s) :=
  inferInstanceAs (Decidable ('\n' ∉ s.toList))

@[simp] theorem oneLine_append : OneLine (a ++ b) ↔ OneLine a ∧ OneLine b := by
  simp [OneLine]

theorem count_ofLines (lines : List String) :
    (ofLines lines).toList.count '\n' =
      lines.length + (lines.map fun line => line.toList.count '\n').sum := by
  induction lines with
  | nil => rfl
  | cons line rest ih =>
    have ended : "\n".toList.count '\n' = 1 := rfl
    rw [ofLines_cons, String.toList_append, String.toList_append, List.count_append,
      List.count_append, ended, ih, List.length_cons, List.map_cons, List.sum_cons]
    omega

/-- A text has as many line breaks as lines exactly if none of the lines breaks in between. -/
theorem count_ofLines_eq_length_iff {lines : List String} :
    (ofLines lines).toList.count '\n' = lines.length ↔ ∀ line ∈ lines, OneLine line := by
  rw [count_ofLines, Nat.add_eq_left, List.sum_eq_zero_iff_forall_eq_nat, List.forall_mem_map]
  exact forall₂_congr fun line _ => List.count_eq_zero

/-- Every line break in a literal is escaped. -/
theorem oneLine_literal (s : String) : OneLine (literal s) :=
  (lineEnd_not_mem_literal s).1

/-- Where lines are split at their ends, each of them comes back. -/
theorem splitOn_of_ofLines {lines : List String} (given : lines ≠ [])
    (ended : s ++ "\n" = ofLines lines) (plain : ∀ line ∈ lines, OneLine line) :
    s.toList.splitOn '\n' = lines.map String.toList := by
  have joined : ∀ ls : List String, ls ≠ [] →
      (ofLines ls).toList = ['\n'].intercalate (ls.map String.toList) ++ ['\n'] := by
    intro ls given
    induction ls with
    | nil => exact absurd rfl given
    | cons line rest ih =>
      cases rest with
      | nil => simp [List.intercalate]
      | cons next later =>
        have following := ih (by simp)
        rw [ofLines_cons, String.toList_append, following]
        simp [List.intercalate_cons_cons]
  have text : s.toList = ['\n'].intercalate (lines.map String.toList) := by
    have chars := congrArg String.toList ended
    rw [String.toList_append, joined lines given] at chars
    exact List.append_cancel_right chars
  rw [text]
  refine List.splitOn_intercalate '\n' ?_ (by simpa using given)
  exact List.forall_mem_map.mpr plain

theorem mem_of_mem_trimChars {c : Char} (member : c ∈ trimChars cs) : c ∈ cs := by
  have back : trimChars cs <+: cs.dropWhile isBlank := List.rdropWhile_prefix _ _
  exact (List.dropWhile_suffix _).subset (back.subset member)

/-- A first line that is there has something on it, and no line end. -/
theorem firstLine_spec {line : String} (found : firstLine s = some line) :
    line ≠ "" ∧ OneLine line := by
  unfold firstLine at found
  split at found
  next => cases found
  next given =>
    cases found
    constructor
    · exact fun nothing => given (String.ofList_eq_empty_iff.mp nothing)
    · rw [OneLine, String.toList_ofList]
      intro broken
      have before := List.mem_takeWhile_imp (mem_of_mem_trimChars broken)
      simp at before

end SchemaTypes.Text
