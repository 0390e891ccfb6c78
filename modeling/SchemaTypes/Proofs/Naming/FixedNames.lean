import SchemaTypes.Proofs.Naming.Identifier
import SchemaTypes.Proofs.Text.Blank

/-!
# Normalized names are fixed

Normalization leaves an identifier with a capital in front as it is. A normalized text is one, and
so are its numbered variants.
-/
namespace SchemaTypes.Naming

variable {cs ds : List Char} {name : String} {table : NameTable}

/-- Nothing changes when the first letter is made a capital. -/
def Capital (name : String) : Prop :=
  upperFirst name.toList = name.toList

theorem upperFirst_upperFirst (cs : List Char) : upperFirst (upperFirst cs) = upperFirst cs := by
  cases cs with
  | nil => rfl
  | cons c rest =>
    have twice : c.toUpper.toUpper = c.toUpper := Char.toUpper_toUpper_eq_toUpper c
    rw [upperFirst, upperFirst, twice]

/-- An identifier has no blanks to trim. -/
theorem trimChars_of_identifier (identifier : isIdentifierChars cs = true) :
    Text.trimChars cs = cs := by
  have plain (c : Char) (member : c ∈ cs) : Text.isBlank c = false :=
    isBlank_of_isIdentifierPart (isIdentifierPart_of_mem identifier member)
  refine Text.trimChars_of_ends (fun c head => ?_) (fun c last => ?_)
  · exact plain c (List.mem_of_head? head)
  · exact plain c (List.mem_of_getLast? last)

/-- An identifier starts with no digit. -/
theorem guardDigit_of_identifier (identifier : isIdentifierChars cs = true) :
    guardDigit cs = cs := by
  cases cs with
  | nil => rfl
  | cons c rest =>
    obtain ⟨start, -⟩ := isIdentifierChars_cons.mp identifier
    have noDigit : c.isDigit = false := by
      simp only [isIdentifierStart, Bool.or_eq_true, beq_iff_eq] at start
      rcases start with rfl | alpha
      · decide
      · exact isDigit_eq_false_of_isAlpha alpha
    simp [guardDigit, noDigit]

theorem normalizeChars_of_identifier (identifier : isIdentifierChars cs = true) :
    normalizeChars cs true = upperFirst cs := by
  simp only [normalizeChars, trimChars_of_identifier identifier, identifier, if_true,
    guardDigit_of_identifier identifier]

theorem normalize_eq_self (identifier : isIdentifier name = true) (capital : Capital name) :
    normalize name true = name := by
  rw [normalize, normalizeChars_of_identifier identifier, capital, String.ofList_toList]

theorem capital_normalize (raw : String) : Capital (normalize raw true) := by
  rw [Capital, normalize, String.toList_ofList, normalizeChars]
  exact upperFirst_upperFirst _

theorem ne_nil_of_isIdentifier (identifier : isIdentifier name = true) : name.toList ≠ [] := by
  intro nothing
  rw [isIdentifier, nothing] at identifier
  cases identifier

/-- A name keeps its first letter when something is put behind it. -/
theorem Capital.append (capital : Capital name) (given : name.toList ≠ []) (suffix : String) :
    Capital (name ++ suffix) := by
  rw [Capital] at capital ⊢
  rw [String.toList_append]
  cases spelled : name.toList with
  | nil => exact absurd spelled given
  | cons c rest =>
    rw [spelled, upperFirst] at capital
    injection capital with first _
    rw [List.cons_append, upperFirst, first]

theorem capital_freeName (identifier : isIdentifier name = true) (capital : Capital name) :
    Capital (table.freeName name) := by
  unfold NameTable.freeName
  split
  · exact capital.append (ne_nil_of_isIdentifier identifier) _
  · exact capital

/-- The name that is claimed for a text is normalized to itself. -/
theorem normalize_freeName {raw : String} (usable : normalize raw true ≠ "") (table : NameTable) :
    normalize (table.freeName (normalize raw true)) true =
      table.freeName (normalize raw true) := by
  have identifier := isIdentifier_normalize usable
  have capital := capital_normalize raw
  exact normalize_eq_self (NameTable.isIdentifier_freeName identifier)
    (capital_freeName identifier capital)

end SchemaTypes.Naming
