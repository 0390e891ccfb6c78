import Mathlib
import SchemaTypes.Naming.Identifier
import SchemaTypes.Proofs.Naming.NameTable
import SchemaTypes.Text.Blank

/-!
# Normalized names are identifiers

A normalized text is an identifier, unless nothing is left of it, and so is every name that a claim
for an identifier is given.
-/
namespace SchemaTypes.Naming

variable {c : Char} {cs : List Char} {name : String}

/-! ### Characters -/

theorem isIdentifierPart_of_start (start : isIdentifierStart c = true) :
    isIdentifierPart c = true := by
  simp only [isIdentifierStart, isIdentifierPart, Char.isAlphanum, Bool.or_eq_true] at start ⊢
  exact start.imp_right Or.inl

theorem isIdentifierPart_of_isAlphanum (alphanum : c.isAlphanum = true) :
    isIdentifierPart c = true := by
  simp [isIdentifierPart, alphanum]

/-- A part character that is no digit can stand first. -/
theorem isIdentifierStart_of_part (part : isIdentifierPart c = true) (digit : c.isDigit = false) :
    isIdentifierStart c = true := by
  simpa [isIdentifierPart, isIdentifierStart, Char.isAlphanum, digit] using part

theorem toNat_of_isIdentifierPart (part : isIdentifierPart c = true) :
    (0x30 ≤ c.toNat ∧ c.toNat ≤ 0x39) ∨ (0x41 ≤ c.toNat ∧ c.toNat ≤ 0x5A) ∨
      c.toNat = 0x5F ∨ (0x61 ≤ c.toNat ∧ c.toNat ≤ 0x7A) := by
  simp only [isIdentifierPart, Char.isAlphanum, Char.isAlpha, Char.isUpper, Char.isLower,
    Char.isDigit, Bool.or_eq_true, decide_eq_true_eq, beq_iff_eq, ge_iff_le,
    UInt32.le_iff_toNat_le, Bool.and_eq_true] at part
  rcases part with rfl | (upper | lower) | digit
  · decide
  · exact Or.inr (Or.inl upper)
  · exact Or.inr (Or.inr (Or.inr lower))
  · exact Or.inl digit

theorem isBlank_of_isIdentifierPart (part : isIdentifierPart c = true) :
    Text.isBlank c = false := by
  have range := toNat_of_isIdentifierPart part
  simp only [Text.isBlank, Bool.or_eq_false_iff, Bool.and_eq_false_iff, decide_eq_false_iff_not,
    beq_eq_false_iff_ne]
  omega

theorem isDigit_eq_false_of_isAlpha (alpha : c.isAlpha = true) : c.isDigit = false := by
  simp only [Char.isAlpha, Char.isUpper, Char.isLower, Char.isDigit, Bool.or_eq_true,
    decide_eq_true_eq, ge_iff_le, UInt32.le_iff_toNat_le, Bool.and_eq_true, Bool.and_eq_false_iff,
    decide_eq_false_iff_not] at alpha ⊢
  have upper : 'A'.val.toNat = 65 := rfl
  have lower : 'a'.val.toNat = 97 := rfl
  have nine : '9'.val.toNat = 57 := rfl
  omega

theorem isIdentifierStart_toUpper (start : isIdentifierStart c = true) :
    isIdentifierStart c.toUpper = true := by
  simp only [isIdentifierStart, Bool.or_eq_true, beq_iff_eq, Char.isAlpha_toUpper_eq_isAlpha]
    at start ⊢
  rcases start with rfl | alpha
  · exact Or.inl rfl
  · exact Or.inr alpha

theorem isIdentifierStart_toLower (start : isIdentifierStart c = true) :
    isIdentifierStart c.toLower = true := by
  simp only [isIdentifierStart, Bool.or_eq_true, beq_iff_eq, Char.isAlpha_toLower_eq_isAlpha]
    at start ⊢
  rcases start with rfl | alpha
  · exact Or.inl rfl
  · exact Or.inr alpha

theorem isIdentifierPart_toUpper (part : isIdentifierPart c = true) :
    isIdentifierPart c.toUpper = true := by
  cases digit : c.isDigit with
  | true =>
    have unchanged : c.toUpper = c := by
      refine Char.toUpper_eq_of_not_isLower fun lower => ?_
      rw [isDigit_eq_false_of_isAlpha (by simp [Char.isAlpha, lower])] at digit
      cases digit
    rwa [unchanged]
  | false =>
    have start := isIdentifierStart_toUpper (isIdentifierStart_of_part part digit)
    exact isIdentifierPart_of_start start

/-! ### Identifiers -/

theorem isIdentifierChars_cons {rest : List Char} :
    isIdentifierChars (c :: rest) = true ↔
      isIdentifierStart c = true ∧ ∀ d ∈ rest, isIdentifierPart d = true := by
  simp [isIdentifierChars]

theorem isIdentifierPart_of_mem (identifier : isIdentifierChars cs = true) (member : c ∈ cs) :
    isIdentifierPart c = true := by
  cases cs with
  | nil => cases member
  | cons first rest =>
    obtain ⟨start, parts⟩ := isIdentifierChars_cons.mp identifier
    rcases List.mem_cons.mp member with rfl | later
    · exact isIdentifierPart_of_start start
    · exact parts c later

theorem isIdentifierChars_append {ds : List Char} (identifier : isIdentifierChars cs = true)
    (parts : ∀ d ∈ ds, isIdentifierPart d = true) : isIdentifierChars (cs ++ ds) = true := by
  cases cs with
  | nil => cases identifier
  | cons first rest =>
    obtain ⟨start, inside⟩ := isIdentifierChars_cons.mp identifier
    refine isIdentifierChars_cons.mpr ⟨start, fun d member => ?_⟩
    rcases List.mem_append.mp member with old | new
    · exact inside d old
    · exact parts d new

theorem isIdentifierChars_upperFirst (identifier : isIdentifierChars cs = true) :
    isIdentifierChars (upperFirst cs) = true := by
  cases cs with
  | nil => cases identifier
  | cons first rest =>
    obtain ⟨start, inside⟩ := isIdentifierChars_cons.mp identifier
    exact isIdentifierChars_cons.mpr ⟨isIdentifierStart_toUpper start, inside⟩

theorem isIdentifierChars_lowerFirst (identifier : isIdentifierChars cs = true) :
    isIdentifierChars (lowerFirst cs) = true := by
  cases cs with
  | nil => cases identifier
  | cons first rest =>
    obtain ⟨start, inside⟩ := isIdentifierChars_cons.mp identifier
    exact isIdentifierChars_cons.mpr ⟨isIdentifierStart_toLower start, inside⟩

/-- An underscore in front of a digit makes part characters an identifier. -/
theorem isIdentifierChars_guardDigit (given : cs ≠ [])
    (parts : ∀ d ∈ cs, isIdentifierPart d = true) : isIdentifierChars (guardDigit cs) = true := by
  cases cs with
  | nil => exact absurd rfl given
  | cons first rest =>
    simp only [guardDigit]
    split
    next => exact isIdentifierChars_cons.mpr ⟨rfl, parts⟩
    next digit =>
      have start := isIdentifierStart_of_part (parts first List.mem_cons_self)
        (Bool.eq_false_iff.mpr digit)
      exact isIdentifierChars_cons.mpr
        ⟨start, fun d member => parts d (List.mem_cons_of_mem _ member)⟩

/-! ### Words -/

theorem isAlphanum_of_mem_leadingWord (cs : List Char) :
    (∀ c ∈ (leadingWord cs).1, c.isAlphanum = true) ∧
      ∀ word ∈ (leadingWord cs).2, ∀ c ∈ word, c.isAlphanum = true := by
  induction cs with
  | nil => simp [leadingWord]
  | cons first rest ih =>
    obtain ⟨front, later⟩ := ih
    unfold leadingWord
    split
    next found =>
      rw [found] at front later
      split
      next alphanum => exact ⟨by simpa using alphanum, later⟩
      next => exact ⟨by simp, later⟩
    next found =>
      rw [found] at front later
      split
      next alphanum => exact ⟨by simpa using ⟨alphanum, by simpa using front⟩, later⟩
      next => exact ⟨by simp, List.forall_mem_cons.mpr ⟨front, later⟩⟩

theorem isAlphanum_of_mem_words {word : List Char} (member : word ∈ words cs) :
    ∀ c ∈ word, c.isAlphanum = true := by
  obtain ⟨front, later⟩ := isAlphanum_of_mem_leadingWord cs
  unfold words at member
  split at member
  next found =>
    rw [found] at later
    exact later word member
  next found =>
    rw [found] at front later
    exact List.forall_mem_cons.mpr ⟨front, later⟩ word member

theorem isIdentifierPart_of_mem_joinWords {several : List (List Char)}
    (alphanum : ∀ word ∈ several, ∀ c ∈ word, c.isAlphanum = true)
    (member : c ∈ joinWords several) : isIdentifierPart c = true := by
  unfold joinWords at member
  split at member
  next word => exact isIdentifierPart_of_isAlphanum (alphanum word List.mem_cons_self c member)
  next =>
    obtain ⟨word, listed, inside⟩ := List.mem_flatMap.mp member
    cases word with
    | nil => cases inside
    | cons first rest =>
      -- Only the first letter of a word is changed, and it remains a part character.
      rcases List.mem_cons.mp inside with rfl | later
      · exact isIdentifierPart_toUpper
          (isIdentifierPart_of_isAlphanum (alphanum _ listed first List.mem_cons_self))
      · exact isIdentifierPart_of_isAlphanum
          (alphanum _ listed c (List.mem_cons_of_mem _ later))

/-! ### Normalized names -/

theorem normalizeChars_isIdentifier (raw : List Char) (capital : Bool) :
    normalizeChars raw capital = [] ∨ isIdentifierChars (normalizeChars raw capital) = true := by
  let spelled := if isIdentifierChars (Text.trimChars raw) then Text.trimChars raw
    else joinWords (words (Text.trimChars raw))
  have parts : ∀ c ∈ spelled, isIdentifierPart c = true := by
    intro c member
    by_cases identifier : isIdentifierChars (Text.trimChars raw) = true
    · simp only [spelled, if_pos identifier] at member
      exact isIdentifierPart_of_mem identifier member
    · simp only [spelled, if_neg identifier] at member
      exact isIdentifierPart_of_mem_joinWords (fun word => isAlphanum_of_mem_words) member
  have cased : normalizeChars raw capital =
      if capital then upperFirst (guardDigit spelled) else lowerFirst (guardDigit spelled) := rfl
  by_cases given : spelled = []
  · left
    rw [cased, given]
    cases capital <;> rfl
  · right
    have identifier := isIdentifierChars_guardDigit given parts
    rw [cased]
    split
    · exact isIdentifierChars_upperFirst identifier
    · exact isIdentifierChars_lowerFirst identifier

theorem isIdentifierPart_of_mem_normalizeChars {raw : List Char} {capital : Bool}
    (member : c ∈ normalizeChars raw capital) : isIdentifierPart c = true := by
  rcases normalizeChars_isIdentifier raw capital with nothing | identifier
  · rw [nothing] at member
    cases member
  · exact isIdentifierPart_of_mem identifier member

theorem isIdentifier_normalize {raw : String} {capital : Bool}
    (usable : normalize raw capital ≠ "") : isIdentifier (normalize raw capital) = true := by
  rcases normalizeChars_isIdentifier raw.toList capital with nothing | identifier
  · exact absurd (by rw [normalize, nothing, String.ofList_nil]) usable
  · simpa [normalize, isIdentifier] using identifier

/-- A number behind an identifier leaves it one. -/
theorem isIdentifier_numbered (identifier : isIdentifier name = true) (n : Nat) :
    isIdentifier (name ++ toString n) = true := by
  rw [isIdentifier, String.toList_append]
  refine isIdentifierChars_append identifier fun d member => ?_
  rw [Nat.toString_eq_repr, Nat.toList_repr] at member
  have digit := Nat.isDigit_of_mem_toDigits (by decide) (by decide) member
  exact isIdentifierPart_of_isAlphanum (by simp [Char.isAlphanum, digit])

theorem NameTable.isIdentifier_freeName {table : NameTable}
    (identifier : isIdentifier name = true) : isIdentifier (table.freeName name) = true := by
  unfold NameTable.freeName
  split
  · exact isIdentifier_numbered identifier _
  · exact identifier

end SchemaTypes.Naming
