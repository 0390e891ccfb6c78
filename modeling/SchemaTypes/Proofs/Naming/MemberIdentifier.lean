import SchemaTypes.Proofs.Naming.FixedNames
import SchemaTypes.Resolve.EnumTable

/-!
# Identifiers of enum members

The identifier of a member is the name of its enum and the stem of its literal, all in upper case.
A literal that is no identifier leaves only its letters and digits in the stem. So two literals of
an enum have the same identifier exactly if they have the same stem.
-/
namespace SchemaTypes

open Naming

namespace Naming

variable {c : Char} {cs : List Char}

/-! ### Upper case -/

/-- The characters of identifiers are those of ASCII that have one upper-case form. -/
theorem upperChar_of_part (part : isIdentifierPart c = true) : Text.upperChar c = [c.toUpper] := by
  have range := toNat_of_isIdentifierPart part
  have ascii : c.toNat < 0x80 := by omega
  rw [Text.upperChar, if_pos ascii]

theorem flatMap_upperChar (parts : ∀ c ∈ cs, isIdentifierPart c = true) :
    cs.flatMap Text.upperChar = cs.map Char.toUpper := by
  rw [← List.flatMap_singleton' (cs.map Char.toUpper), List.flatMap_map]
  exact List.flatMap_congr fun c member => upperChar_of_part (parts c member)

theorem isIdentifierChars_map_toUpper (identifier : isIdentifierChars cs = true) :
    isIdentifierChars (cs.map Char.toUpper) = true := by
  cases cs with
  | nil => cases identifier
  | cons first rest =>
    obtain ⟨start, parts⟩ := isIdentifierChars_cons.mp identifier
    refine isIdentifierChars_cons.mpr ⟨isIdentifierStart_toUpper start, fun d member => ?_⟩
    obtain ⟨c, inside, rfl⟩ := List.mem_map.mp member
    exact isIdentifierPart_toUpper (parts c inside)

theorem isDigit_toUpper (c : Char) : c.toUpper.isDigit = c.isDigit := by
  cases alpha : c.isAlpha with
  | true =>
    rw [isDigit_eq_false_of_isAlpha alpha]
    exact isDigit_eq_false_of_isAlpha ((Char.isAlpha_toUpper_eq_isAlpha c).trans alpha)
  | false =>
    have unchanged : c.toUpper = c := by
      refine Char.toUpper_eq_of_not_isLower fun lower => ?_
      simp [Char.isAlpha, lower] at alpha
    rw [unchanged]

theorem map_toUpper_upperFirst (cs : List Char) :
    (upperFirst cs).map Char.toUpper = cs.map Char.toUpper := by
  cases cs <;> simp [upperFirst]

theorem map_toUpper_lowerFirst (cs : List Char) :
    (lowerFirst cs).map Char.toUpper = cs.map Char.toUpper := by
  cases cs <;> simp [lowerFirst]

theorem map_toUpper_guardDigit (cs : List Char) :
    (guardDigit cs).map Char.toUpper = guardDigit (cs.map Char.toUpper) := by
  cases cs with
  | nil => rfl
  | cons c rest =>
    simp only [guardDigit, List.map_cons, isDigit_toUpper]
    split <;> rfl

/-! ### Words -/

theorem flatten_leadingWord (cs : List Char) :
    (leadingWord cs).1 ++ (leadingWord cs).2.flatten = cs.filter Char.isAlphanum := by
  induction cs with
  | nil => rfl
  | cons c rest ih =>
    -- A letter or digit goes to the word in front, any other character ends that word.
    unfold leadingWord
    split
    next found =>
      rw [found] at ih
      split
      next alphanum => simpa [alphanum] using ih
      next other => simpa [other] using ih
    next found =>
      rw [found] at ih
      split
      next alphanum => simpa [alphanum] using ih
      next other => simpa [other] using ih

/-- The words of a text are made of all its letters and digits. -/
theorem flatten_words (cs : List Char) : (words cs).flatten = cs.filter Char.isAlphanum := by
  rw [← flatten_leadingWord cs]
  unfold words
  split
  next found => rw [found, List.nil_append]
  next found => rw [found, List.flatten_cons]

/-- Capitals in words do not show in upper case. -/
theorem map_toUpper_joinWords (several : List (List Char)) :
    (joinWords several).map Char.toUpper = several.flatten.map Char.toUpper := by
  unfold joinWords
  split
  next word => rw [List.flatten_cons, List.flatten_nil, List.append_nil]
  next =>
    rw [List.map_flatMap, ← List.flatMap_id', List.map_flatMap]
    exact List.flatMap_congr fun word _ => map_toUpper_upperFirst word

end Naming

/-! ### Stems -/

namespace EnumMember

def stemChars (literal : List Char) : List Char :=
  let trimmed := Text.trimChars literal
  if isIdentifierChars trimmed then trimmed.map Char.toUpper
  else guardDigit ((trimmed.filter Char.isAlphanum).map Char.toUpper)

/-- What of a literal is in the identifier of its member: the literal itself in upper case if it is
an identifier, or else its letters and digits in upper case, after an underscore if a digit comes
first. -/
def stem (literal : String) : String :=
  String.ofList (stemChars literal.toList)

theorem map_toUpper_normalizeChars (raw : List Char) :
    (normalizeChars raw false).map Char.toUpper = stemChars raw := by
  simp only [normalizeChars, Bool.false_eq_true, if_false, map_toUpper_lowerFirst, stemChars]
  split
  next identifier => rw [guardDigit_of_identifier identifier]
  next => rw [map_toUpper_guardDigit, map_toUpper_joinWords, flatten_words]

theorem upper_normalize (literal : String) : Text.upper (normalize literal false) = stem literal := by
  rw [Text.upper, Naming.normalize, String.toList_ofList,
    flatMap_upperChar fun c => isIdentifierPart_of_mem_normalizeChars, map_toUpper_normalizeChars,
    stem]

theorem identifierOf_eq (enumName literal : String) :
    identifierOf enumName literal = Text.upper enumName ++ "_" ++ stem literal := by
  rw [identifierOf, upper_normalize]

/-- In one enum, two literals have the same identifier exactly if they have the same stem. -/
theorem identifierOf_inj {enumName v w : String} :
    identifierOf enumName v = identifierOf enumName w ↔ stem v = stem w := by
  rw [identifierOf_eq, identifierOf_eq]
  exact String.append_right_inj _

/-- Members have identifiers, whatever their literals are, if the name of the enum is one. -/
theorem isIdentifier_identifierOf {enumName : String} (named : isIdentifier enumName = true)
    (literal : String) : isIdentifier (identifierOf enumName literal) = true := by
  have chars : (Text.upper enumName).toList = enumName.toList.map Char.toUpper := by
    rw [Text.upper, String.toList_ofList, flatMap_upperChar fun c => isIdentifierPart_of_mem named]
  have stemmed : (stem literal).toList = (normalizeChars literal.toList false).map Char.toUpper := by
    rw [stem, String.toList_ofList, map_toUpper_normalizeChars]
  rw [identifierOf_eq, isIdentifier, String.toList_append, String.toList_append, chars, stemmed,
    List.append_assoc]
  refine isIdentifierChars_append (isIdentifierChars_map_toUpper named) fun d member => ?_
  rcases List.mem_append.mp member with underscore | inside
  · rw [List.mem_singleton.mp underscore]
    rfl
  · obtain ⟨c, spelled, rfl⟩ := List.mem_map.mp inside
    exact isIdentifierPart_toUpper (isIdentifierPart_of_mem_normalizeChars spelled)

end EnumMember
end SchemaTypes
