import SchemaTypes.Proofs.Naming.Identifier
import SchemaTypes.Proofs.Text.Blank

/-!
# Field names tell keys apart

The quote and the backslashes of a field name can be taken away again, which leaves the property key
without its outer blanks. So two keys have the same field name only if they are the same key, apart
from outer blanks.
-/
namespace SchemaTypes.Naming

variable {reserved : ReservedWords} {cs : List Char}

/-- Takes away every backslash that is not escaped itself. -/
def unescapeName : List Char → List Char
  | '\\' :: c :: rest => c :: unescapeName rest
  | ['\\'] => []
  | c :: rest => c :: unescapeName rest
  | [] => []

/-- The characters that a field name was made from: without the quote in front, if there is one, and
without escapes. -/
def fieldKeyChars : List Char → List Char
  | '\'' :: rest => unescapeName rest
  | cs => unescapeName cs

theorem unescapeName_cons {c : Char} (plain : c ≠ '\\') (rest : List Char) :
    unescapeName (c :: rest) = c :: unescapeName rest := by
  conv_lhs => unfold unescapeName
  split <;> simp_all

theorem unescapeName_escape (cs : List Char) : unescapeName (cs.flatMap escapeChar) = cs := by
  induction cs with
  | nil => rfl
  | cons c rest ih =>
    rw [List.flatMap_cons]
    by_cases part : isIdentifierPart c = true
    · have plain : c ≠ '\\' := by
        rintro rfl
        cases part
      rw [escapeChar, if_pos part, List.singleton_append, unescapeName_cons plain, ih]
    · rw [escapeChar, if_neg part]
      change c :: unescapeName (rest.flatMap escapeChar) = c :: rest
      rw [ih]

/-- An identifier has nothing to escape. -/
theorem flatMap_escapeChar (parts : ∀ c ∈ cs, isIdentifierPart c = true) :
    cs.flatMap escapeChar = cs := by
  induction cs with
  | nil => rfl
  | cons c rest ih =>
    rw [List.flatMap_cons, escapeChar, if_pos (parts c List.mem_cons_self),
      ih fun d member => parts d (List.mem_cons_of_mem _ member), List.singleton_append]

theorem fieldKeyChars_identifier (identifier : isIdentifierChars cs = true) :
    unescapeName cs = cs ∧ fieldKeyChars cs = cs := by
  have unescaped : unescapeName cs = cs := by
    have escaped := unescapeName_escape cs
    rwa [flatMap_escapeChar fun c => isIdentifierPart_of_mem identifier] at escaped
  refine ⟨unescaped, ?_⟩
  unfold fieldKeyChars
  split
  next =>
    -- A quote starts no identifier.
    cases (isIdentifierChars_cons.mp identifier).1
  next => exact unescaped

/-- The key comes back from its field name. -/
theorem fieldKeyChars_fieldNameChars (reserved : ReservedWords) (key : List Char) :
    fieldKeyChars (fieldNameChars reserved key) = Text.trimChars key := by
  simp only [fieldNameChars]
  split
  next identifier =>
    obtain ⟨unescaped, plain⟩ := fieldKeyChars_identifier identifier
    split
    · exact unescaped
    · exact plain
  next => exact unescapeName_escape _

/-- Two keys have the same field name exactly if they are equal apart from outer blanks. -/
theorem fieldName_eq_iff {a b : String} :
    fieldName reserved a = fieldName reserved b ↔ Text.trim a = Text.trim b := by
  constructor
  · intro same
    have chars : fieldNameChars reserved a.toList = fieldNameChars reserved b.toList := by
      simpa [fieldName] using congrArg String.toList same
    rw [Text.trim, Text.trim, ← fieldKeyChars_fieldNameChars reserved a.toList, chars,
      fieldKeyChars_fieldNameChars]
  · intro same
    have chars : Text.trimChars a.toList = Text.trimChars b.toList := by
      simpa [Text.trim] using congrArg String.toList same
    simp only [fieldName, fieldNameChars, chars]

/-- The key that a field name stands for. -/
def fieldKey (name : String) : String :=
  String.ofList (fieldKeyChars name.toList)

/-- Whatever words are reserved, the key of a field can be told from its name, apart from outer
blanks: no two keys share a name, and the key is what is left of the name without quote and escapes. -/
theorem fieldName_reversible (reserved : ReservedWords) (a b : String) :
    (fieldName reserved a = fieldName reserved b ↔ Text.trim a = Text.trim b) ∧
      fieldKey (fieldName reserved a) = Text.trim a := by
  refine ⟨fieldName_eq_iff, ?_⟩
  rw [fieldKey, fieldName, String.toList_ofList, fieldKeyChars_fieldNameChars, Text.trim]

/-- A reserved word, a quote and a backslash in a key, and a key without any character. -/
example : ["type", "it's a\\b", " "].map (fieldName {}) = ["'type", "'it\\'s\\ a\\\\b", "'"] := by
  decide +kernel

end SchemaTypes.Naming
