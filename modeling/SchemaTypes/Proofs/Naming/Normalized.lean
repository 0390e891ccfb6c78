import SchemaTypes.Proofs.Naming.MemberIdentifier

/-!
# Laws of normalization

A text is normalized in two steps: an identifier is spelled from it, and then its first letter is
set in the wanted case. The second step leaves an identifier, which is spelled as it stands. So it
makes no difference whether a text was normalized before, in whatever case.
-/
namespace SchemaTypes.Naming

variable {cs raw : List Char} {capital : Bool}

/-! ### The two steps -/

/-- Sets the case of the first letter. -/
def setFirst (capital : Bool) (cs : List Char) : List Char :=
  if capital then upperFirst cs else lowerFirst cs

/-- The identifier for a text, before the case of its first letter is set. -/
def spelling (raw : List Char) : List Char :=
  let trimmed := Text.trimChars raw
  guardDigit (if isIdentifierChars trimmed then trimmed else joinWords (words trimmed))

theorem normalizeChars_eq (raw : List Char) (capital : Bool) :
    normalizeChars raw capital = setFirst capital (spelling raw) :=
  rfl

/-- The case that is set last is the one that stays. -/
theorem setFirst_setFirst (first last : Bool) (cs : List Char) :
    setFirst last (setFirst first cs) = setFirst last cs := by
  cases cs with
  | nil => cases first <;> cases last <;> rfl
  | cons c rest =>
    cases first <;> cases last <;> simp [setFirst, upperFirst, lowerFirst]

theorem setFirst_eq_nil_iff : setFirst capital cs = [] ↔ cs = [] := by
  cases cs with
  | nil => cases capital <;> simp [setFirst, upperFirst, lowerFirst]
  | cons c rest => cases capital <;> simp [setFirst, upperFirst, lowerFirst]

theorem spelling_of_identifier (identifier : isIdentifierChars cs = true) : spelling cs = cs := by
  simp only [spelling, trimChars_of_identifier identifier, identifier, if_true,
    guardDigit_of_identifier identifier]

/-! ### Texts without a name -/

theorem guardDigit_eq_nil_iff : guardDigit cs = [] ↔ cs = [] := by
  cases cs with
  | nil => simp [guardDigit]
  | cons c rest =>
    simp only [guardDigit, reduceCtorEq, iff_false]
    split <;> simp

/-- Joining words drops none of their letters. -/
theorem joinWords_eq_nil_iff {several : List (List Char)} :
    joinWords several = [] ↔ several.flatten = [] := by
  rw [← List.map_eq_nil_iff, map_toUpper_joinWords, List.map_eq_nil_iff]

theorem spelling_eq_nil_iff :
    spelling raw = [] ↔ isIdentifierChars (Text.trimChars raw) = false ∧
      ∀ c ∈ Text.trimChars raw, c.isAlphanum = false := by
  rw [spelling, guardDigit_eq_nil_iff]
  cases identifier : isIdentifierChars (Text.trimChars raw) with
  | true =>
    have given : Text.trimChars raw ≠ [] := by
      intro nothing
      rw [nothing] at identifier
      cases identifier
    simp [given]
  | false => simp [joinWords_eq_nil_iff, flatten_words, List.filter_eq_nil_iff]

/-! ### Normalized texts -/

theorem normalizeChars_eq_nil_iff :
    normalizeChars raw capital = [] ↔ isIdentifierChars (Text.trimChars raw) = false ∧
      ∀ c ∈ Text.trimChars raw, c.isAlphanum = false := by
  rw [normalizeChars_eq, setFirst_eq_nil_iff, spelling_eq_nil_iff]

theorem normalizeChars_normalizeChars (raw : List Char) (first last : Bool) :
    normalizeChars (normalizeChars raw first) last = normalizeChars raw last := by
  rcases normalizeChars_isIdentifier raw first with nothing | identifier
  · have unspelled : spelling raw = [] := setFirst_eq_nil_iff.mp nothing
    rw [nothing, normalizeChars_eq raw, unspelled]
    rfl
  · calc
      normalizeChars (normalizeChars raw first) last
        = setFirst last (normalizeChars raw first) := by
          rw [normalizeChars_eq, spelling_of_identifier identifier]
      _ = setFirst last (spelling raw) := setFirst_setFirst first last (spelling raw)

/-- A normalized text is an identifier or empty, and empty exactly if the text without its outer
blanks is no identifier and has no letter or digit. What was normalized before is normalized to the
same. A name with a capital, and a number behind it, is normalized to itself. -/
theorem normalize_lawful (raw : String) (first last : Bool) (n : Nat) :
    (normalize raw first = "" ∨ isIdentifier (normalize raw first) = true) ∧
      (normalize raw first = "" ↔ isIdentifier (Text.trim raw) = false ∧
        ∀ c ∈ (Text.trim raw).toList, c.isAlphanum = false) ∧
      normalize (normalize raw first) last = normalize raw last ∧
      (normalize raw true ≠ "" →
        normalize (normalize raw true ++ toString n) true = normalize raw true ++ toString n) := by
  refine ⟨?_, ?_, ?_, fun usable => ?_⟩
  · by_cases nothing : normalize raw first = ""
    · exact Or.inl nothing
    · exact Or.inr (isIdentifier_normalize nothing)
  · have chars : normalize raw first = "" ↔ normalizeChars raw.toList first = [] := by
      rw [normalize, ← String.toList_inj, String.toList_ofList, String.toList_empty]
    rw [chars, normalizeChars_eq_nil_iff, isIdentifier, Text.trim, String.toList_ofList]
  · rw [normalize, normalize, String.toList_ofList, normalizeChars_normalizeChars, normalize]
  · have identifier := isIdentifier_normalize usable
    have capital : Capital (normalize raw true ++ toString n) :=
      (capital_normalize raw).append (ne_nil_of_isIdentifier identifier) _
    exact normalize_eq_self (isIdentifier_numbered identifier n) capital

/-- Two words, with a digit in front. -/
theorem second_pet_lawful :
    normalize "2nd pet" true ≠ "" ∧
      normalize (normalize "2nd pet" true ++ toString 10) true = "_2ndPet10" := by
  have named : normalize "2nd pet" true = "_2ndPet" := by decide +kernel
  have usable : normalize "2nd pet" true ≠ "" := by
    rw [named]
    decide
  obtain ⟨-, -, -, fixed⟩ := normalize_lawful "2nd pet" true true 10
  refine ⟨usable, (fixed usable).trans ?_⟩
  rw [named]
  decide

end SchemaTypes.Naming
