import SchemaTypes.Text.Blank
import Mathlib.Data.List.DropRight

/-!
# Trimming

A trimmed text has no blank at either end, so trimming it again changes nothing.
-/
namespace SchemaTypes.Text

variable {cs : List Char}

/-- Without blanks at its ends a text stays as it is. -/
theorem trimChars_of_ends (first : ∀ c ∈ cs.head?, isBlank c = false)
    (last : ∀ c ∈ cs.getLast?, isBlank c = false) : trimChars cs = cs := by
  have front : cs.dropWhile isBlank = cs := by
    cases cs with
    | nil => rfl
    | cons c rest => simp [first c rfl]
  have back : cs.rdropWhile isBlank = cs := by
    refine List.rdropWhile_eq_self_iff.mpr fun given => ?_
    simpa using last _ (List.getLast?_eq_some_getLast given)
  rw [trimChars, front]
  exact back

@[simp] theorem trimChars_trimChars (cs : List Char) :
    trimChars (trimChars cs) = trimChars cs := by
  let front := cs.dropWhile isBlank
  have trimmed : trimChars cs = front.rdropWhile isBlank := rfl
  refine trimChars_of_ends (fun c head => ?_) (fun c last => ?_)
  · -- What is left starts like the text did after its first blanks were dropped.
    rw [trimmed] at head
    obtain ⟨rest, split⟩ : front.rdropWhile isBlank <+: front := List.rdropWhile_prefix _ _
    have kept : (cs.dropWhile isBlank).head? = some c := by
      rw [show cs.dropWhile isBlank = _ from split.symm, List.head?_append, Option.mem_def.mp head]
      rfl
    have dropped := List.head?_dropWhile_not isBlank cs
    rwa [kept] at dropped
  · rw [trimmed] at last
    obtain ⟨given, same⟩ := List.mem_getLast?_eq_getLast last
    simpa [same] using List.rdropWhile_last_not isBlank front given

@[simp] theorem trim_trim (s : String) : trim (trim s) = trim s := by
  simp [trim]

end SchemaTypes.Text
