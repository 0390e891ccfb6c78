import SchemaTypes.Document.Pointer
import SchemaTypes.Proofs.Naming.Identifier
import SchemaTypes.Proofs.Text.Blank

/-!
# Pointers to normalized names

The pointer to the schema of a normalized name designates that name, since an identifier has no
slash, no tilde and no blank.
-/
namespace SchemaTypes.Document.Pointer

open Naming

variable {segment : List Char} {name : String}

theorem replacePair_cons {a b stand c : Char} (different : c ≠ a) (cs : List Char) :
    replacePair a b stand (c :: cs) = c :: replacePair a b stand cs := by
  cases cs with
  | nil => rfl
  | cons d ds => rw [replacePair, if_neg fun both => different both.1]

theorem replacePair_of_not_mem {a b stand : Char} {cs : List Char} (absent : a ∉ cs) :
    replacePair a b stand cs = cs := by
  induction cs with
  | nil => rfl
  | cons c rest ih =>
    obtain ⟨different, later⟩ := List.ne_and_not_mem_of_not_mem_cons absent
    rw [replacePair_cons different.symm, ih later]

theorem unescape_of_not_mem (absent : '~' ∉ segment) : unescape segment = segment := by
  rw [unescape, replacePair_of_not_mem absent, replacePair_of_not_mem absent]

theorem lastSegment_append (path : List Char) (absent : '/' ∉ segment) :
    lastSegment (path ++ '/' :: segment) = segment := by
  have kept : ∀ c ∈ segment.reverse, (decide (c ≠ '/')) = true := by
    intro c member
    simp only [decide_eq_true_eq]
    rintro rfl
    exact absent (List.mem_reverse.mp member)
  have reversed : (path ++ '/' :: segment).reverse = segment.reverse ++ '/' :: path.reverse := by
    simp
  rw [lastSegment, reversed, List.takeWhile_append_of_pos kept]
  simp

/-- The pointer to a schema with an identifier for its name designates that name. -/
theorem target_toSchema (identifier : isIdentifier name = true) :
    target (toSchema name) = some name := by
  have parts c (member : c ∈ name.toList) : isIdentifierPart c = true :=
    isIdentifierPart_of_mem identifier member
  have noSlash : '/' ∉ name.toList := fun member => nomatch parts _ member
  have noTilde : '~' ∉ name.toList := fun member => nomatch parts _ member
  have given : name.toList ≠ [] := by
    intro nothing
    rw [isIdentifier, nothing] at identifier
    cases identifier
  have chars : (toSchema name).toList =
      '#' :: ("/components/schemas".toList ++ '/' :: name.toList) := String.toList_append
  have trimmed : Text.trimChars (toSchema name).toList = (toSchema name).toList := by
    refine Text.trimChars_of_ends (fun c head => ?_) (fun c last => ?_)
    · rw [chars] at head
      cases head
      rfl
    · -- The pointer ends like the name, which has no blank.
      rw [chars, List.getLast?_cons_of_ne_nil (by simp), List.getLast?_append_of_ne_nil _ (by simp),
        List.getLast?_cons_of_ne_nil given] at last
      exact isBlank_of_isIdentifierPart (parts c (List.mem_of_getLast? last))
  have found : lastSegment ("/components/schemas".toList ++ '/' :: name.toList) = name.toList :=
    lastSegment_append _ noSlash
  unfold target
  rw [trimmed, chars]
  simp only [found]
  cases spelled : name.toList with
  | nil => exact absurd spelled given
  | cons c rest =>
    rw [← spelled, unescape_of_not_mem noTilde, String.ofList_toList]

end SchemaTypes.Document.Pointer
