import SchemaTypes.Json.Reader

/-!
# Quoted strings

A quoted text is read back as it was, whatever characters it has.
-/
namespace SchemaTypes.Json

open Text

/-- The unit stands for the character, whatever units come after it. -/
def StringUnit.Is (unit : StringUnit) (c : Char) : Prop :=
  ∀ units, joinUnits (unit :: units) = (joinUnits units).map (c :: ·)

theorem StringUnit.is_char (c : Char) : (StringUnit.char c).Is c := by
  intro units
  rw [joinUnits]
  cases joinUnits units <;> rfl

/-- A number below the surrogates is that of a character. -/
theorem StringUnit.is_code {n : Nat} (below : n < 0xD800) :
    (StringUnit.code n).Is (Char.ofNat n) := by
  have notLeading : isLeading n = false := by simp [isLeading]; omega
  have notTrailing : isTrailing n = false := by simp [isTrailing]; omega
  intro units
  -- The reader looks at the next unit as well, in case the two are a pair of surrogates.
  rcases units with - | ⟨c | m, rest⟩
  · simp [joinUnits, notLeading, notTrailing]
  · simp only [joinUnits, notLeading, notTrailing, Bool.or_self, if_neg Bool.false_ne_true]
    cases joinUnits rest <;> rfl
  · rw [joinUnits, if_neg (by simp [notLeading]), if_neg (by simp [notTrailing])]
    cases joinUnits (.code m :: rest) <;> rfl

/-- Puts a unit before what was read. -/
def withUnit (unit : StringUnit) (read : List StringUnit × List Char) :
    List StringUnit × List Char :=
  (unit :: read.1, read.2)

/-! ### One character -/

theorem stringUnits_short {e c : Char} (short : shortEscape? e = some c) (tail : List Char) :
    stringUnits ('\\' :: e :: tail) = (stringUnits tail).map (withUnit (.char c)) := by
  have notNumbered : e ≠ 'u' := by
    rintro rfl
    have none : shortEscape? 'u' = none := by decide
    simp [none] at short
  rw [stringUnits.eq_4 _ _ (by simp [notNumbered]), short]
  cases stringUnits tail <;> rfl

theorem hexValue4?_control : ∀ n < 0x20,
    hexValue4? '0' '0' (hexDigit (n / 16)) (hexDigit (n % 16)) = some n := by
  decide

theorem stringUnits_control {n : Nat} (control : n < 0x20) (tail : List Char) :
    stringUnits ('\\' :: 'u' :: '0' :: '0' :: hexDigit (n / 16) :: hexDigit (n % 16) :: tail) =
      (stringUnits tail).map (withUnit (.code n)) := by
  rw [stringUnits, hexValue4?_control n control]
  cases stringUnits tail <;> rfl

theorem stringUnits_plain {c : Char} (notQuote : c ≠ '"') (notEscape : c ≠ '\\')
    (visible : ¬ c.toNat < 0x20) (tail : List Char) :
    stringUnits (c :: tail) = (stringUnits tail).map (withUnit (.char c)) := by
  rw [stringUnits.eq_5 _ _ (by simp [notQuote]) (by simp [notEscape]) (by simp [notEscape]),
    if_neg (by simp [notEscape, visible])]
  cases stringUnits tail <;> rfl

/-- The written form of a character is read as one unit that stands for it. -/
theorem stringUnits_escapeJsonChar (c : Char) (tail : List Char) : ∃ unit : StringUnit,
    unit.Is c ∧ stringUnits (escapeJsonChar c ++ tail) =
      (stringUnits tail).map (withUnit unit) := by
  have ofShort {e : Char} (short : shortEscape? e = some c) : ∃ unit : StringUnit,
      unit.Is c ∧ stringUnits (['\\', e] ++ tail) = (stringUnits tail).map (withUnit unit) :=
    ⟨.char c, StringUnit.is_char c, stringUnits_short short tail⟩
  have ofCode {n : Nat} (code : c.toNat = n) : c = Char.ofNat n := by
    rw [← code, Char.ofNat_toNat]
  -- The cases are those of the writer. One after the other takes a character out, so the last one
  -- is left with those that need no escape.
  rw [escapeJsonChar]
  split
  next quote => exact ofShort (by subst quote; decide)
  next notQuote =>
  split
  next escape => exact ofShort (by subst escape; decide)
  next notEscape =>
  split
  next newLine => exact ofShort (by subst newLine; decide)
  split
  next carriageReturn => exact ofShort (by subst carriageReturn; decide)
  split
  next tab => exact ofShort (by subst tab; decide)
  split
  next code => exact ofShort (by rw [ofCode code]; decide)
  split
  next code => exact ofShort (by rw [ofCode code]; decide)
  split
  next control =>
    refine ⟨.code c.toNat, ?_, stringUnits_control control tail⟩
    have stands := StringUnit.is_code (n := c.toNat) (by omega)
    rwa [Char.ofNat_toNat] at stands
  next visible =>
    exact ⟨.char c, StringUnit.is_char c, stringUnits_plain notQuote notEscape visible tail⟩

/-! ### A whole text -/

theorem stringUnits_escaped (cs rest : List Char) : ∃ units : List StringUnit,
    joinUnits units = some cs ∧
      stringUnits (cs.flatMap escapeJsonChar ++ '"' :: rest) = some (units, rest) := by
  induction cs with
  | nil => exact ⟨[], by simp [joinUnits], by simp [stringUnits]⟩
  | cons c cs ih =>
    obtain ⟨units, joined, read⟩ := ih
    obtain ⟨unit, stands, first⟩ :=
      stringUnits_escapeJsonChar c (cs.flatMap escapeJsonChar ++ '"' :: rest)
    refine ⟨unit :: units, ?_, ?_⟩
    · rw [stands, joined, Option.map_some]
    · rw [List.flatMap_cons, List.append_assoc, first, read]
      rfl

/-- A quoted text is read back, and nothing of what follows it is taken. -/
theorem stringRest_escaped (cs rest : List Char) :
    stringRest (cs.flatMap escapeJsonChar ++ '"' :: rest) =
      some (some (String.ofList cs), rest) := by
  obtain ⟨units, joined, read⟩ := stringUnits_escaped cs rest
  rw [stringRest, read]
  simp [joined]

end SchemaTypes.Json
