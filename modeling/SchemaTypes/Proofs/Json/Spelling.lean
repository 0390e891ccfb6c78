import SchemaTypes.Json.Reader

/-!
# Spellings of JSON values

A value without numbers has many spellings: blanks may stand before and after each token. Both
written forms are spellings of their value.
-/
namespace SchemaTypes.Json

open Text

/-- Characters that may stand between two tokens. -/
def Blank (cs : List Char) : Prop :=
  ∀ c ∈ cs, isSpace c = true

mutual

/-- The characters spell the value, with no blank around it. -/
inductive Spelled : Json → List Char → Prop
  | null : Spelled .null "null".toList
  | bool (value : Bool) : Spelled (.bool value) (if value then "true" else "false").toList
  | text (s : String) : Spelled (.text s) (quoteJson s.toList)
  | emptyArray {blank : List Char} : Blank blank → Spelled (.array []) ('[' :: blank ++ [']'])
  | array {items : List Json} {cs : List Char} :
    SpelledItems items cs → Spelled (.array items) ('[' :: cs ++ [']'])
  | emptyObject {blank : List Char} : Blank blank → Spelled (.object []) ('{' :: blank ++ ['}'])
  | object {entries : List (String × Json)} {cs : List Char} :
    SpelledEntries entries cs → Spelled (.object entries) ('{' :: cs ++ ['}'])

/-- The characters spell the value, and there may be blanks on both sides. -/
inductive Padded : Json → List Char → Prop
  | mk {value : Json} {front cs back : List Char} : Blank front → Spelled value cs → Blank back →
    Padded value (front ++ (cs ++ back))

/-- The characters spell the items, one at least. -/
inductive SpelledItems : List Json → List Char → Prop
  | last {value : Json} {cs : List Char} : Padded value cs → SpelledItems [value] cs
  | more {value : Json} {items : List Json} {cs ds : List Char} : Padded value cs →
    SpelledItems items ds → SpelledItems (value :: items) (cs ++ ',' :: ds)

/-- The characters spell the entry. -/
inductive SpelledEntry : String × Json → List Char → Prop
  | mk {key : String} {value : Json} {front back cs : List Char} : Blank front → Blank back →
    Padded value cs →
    SpelledEntry (key, value) (front ++ (quoteJson key.toList ++ (back ++ ':' :: cs)))

/-- The characters spell the entries, one at least. -/
inductive SpelledEntries : List (String × Json) → List Char → Prop
  | last {entry : String × Json} {cs : List Char} : SpelledEntry entry cs →
    SpelledEntries [entry] cs
  | more {entry : String × Json} {entries : List (String × Json)} {cs ds : List Char} :
    SpelledEntry entry cs → SpelledEntries entries ds →
    SpelledEntries (entry :: entries) (cs ++ ',' :: ds)

end

theorem blank_nil : Blank [] := by
  simp [Blank]

theorem blank_space : Blank [' '] := by
  simp [Blank, isSpace]

theorem blank_newLine (depth : Nat) : Blank (newLine depth) := by
  intro c member
  rcases List.mem_cons.mp member with rfl | later
  · rfl
  · rw [List.eq_of_mem_replicate later]
    rfl

theorem Spelled.padded {value : Json} {cs : List Char} (spelled : Spelled value cs) :
    Padded value cs := by
  have padded := Padded.mk blank_nil spelled blank_nil
  rwa [List.nil_append, List.append_nil] at padded

/-! ### Values without numbers -/

mutual

/-- Is there no number in the value, at any depth? -/
def isNumberless : Json → Bool
  | .number _ => false
  | .array items => areNumberless items
  | .object entries => areEntriesNumberless entries
  | .null | .bool _ | .text _ => true
termination_by structural value => value

def areNumberless : List Json → Bool
  | [] => true
  | value :: rest => value.isNumberless && areNumberless rest
termination_by structural items => items

def areEntriesNumberless : List (String × Json) → Bool
  | [] => true
  | (_, value) :: rest => value.isNumberless && areEntriesNumberless rest
termination_by structural entries => entries

end

/-! ### The compact form -/

theorem compactItems_cons_cons (v w : Json) (rest : List Json) :
    compactItems (v :: w :: rest) = compactChars v ++ ',' :: compactItems (w :: rest) := rfl

/-- An entry of the compact form. -/
def compactEntry (entry : String × Json) : List Char :=
  quoteJson entry.1.toList ++ ':' :: compactChars entry.2

theorem compactEntries_cons_cons (e f : String × Json) (rest : List (String × Json)) :
    compactEntries (e :: f :: rest) = compactEntry e ++ ',' :: compactEntries (f :: rest) := by
  simp [compactEntry, compactEntries, compactLaterEntries]

theorem spelledEntry_compactEntry {entry : String × Json}
    (value : Spelled entry.2 (compactChars entry.2)) :
    SpelledEntry entry (compactEntry entry) :=
  .mk blank_nil blank_nil value.padded

mutual

theorem spelled_compactChars : (value : Json) → value.isNumberless = true →
    Spelled value (compactChars value)
  | .null, _ => .null
  | .bool value, _ => .bool value
  | .text s, _ => .text s
  | .array [], _ => .emptyArray blank_nil
  | .array (v :: rest), numberless =>
    .array (spelledItems_compactItems (v :: rest) (by simp) numberless)
  | .object [], _ => .emptyObject blank_nil
  | .object (e :: rest), numberless =>
    .object (spelledEntries_compactEntries (e :: rest) (by simp) numberless)
termination_by structural value => value

theorem spelledItems_compactItems : (items : List Json) → items ≠ [] →
    areNumberless items = true → SpelledItems items (compactItems items)
  | [], nonempty, _ => absurd rfl nonempty
  | [v], _, numberless => by
    have value : v.isNumberless = true := by simpa [areNumberless] using numberless
    rw [compactItems, compactLaterItems, List.append_nil]
    exact .last (spelled_compactChars v value).padded
  | v :: w :: rest, _, numberless => by
    obtain ⟨value, later⟩ := Bool.and_eq_true_iff.mp numberless
    rw [compactItems_cons_cons]
    exact .more (spelled_compactChars v value).padded
      (spelledItems_compactItems (w :: rest) (by simp) later)
termination_by structural items => items

theorem spelledEntries_compactEntries : (entries : List (String × Json)) → entries ≠ [] →
    areEntriesNumberless entries = true → SpelledEntries entries (compactEntries entries)
  | [], nonempty, _ => absurd rfl nonempty
  | [(k, v)], _, numberless => by
    have value : v.isNumberless = true := by simpa [areEntriesNumberless] using numberless
    rw [compactEntries, compactLaterEntries, List.append_nil]
    exact .last (spelledEntry_compactEntry (spelled_compactChars v value))
  | (k, v) :: e :: rest, _, numberless => by
    obtain ⟨value, later⟩ := Bool.and_eq_true_iff.mp numberless
    rw [compactEntries_cons_cons]
    exact .more (spelledEntry_compactEntry (spelled_compactChars v value))
      (spelledEntries_compactEntries (e :: rest) (by simp) later)
termination_by structural entries => entries

end

/-! ### The indented form -/

/-- The items of the indented form, each on a line of its own. -/
def indentedItems (depth : Nat) : List Json → List Char
  | [] => []
  | value :: rest =>
    newLine depth ++ (indentedChars depth value ++ indentedLaterItems depth rest)

/-- An entry of the indented form, on a line of its own. -/
def indentedEntry (depth : Nat) (entry : String × Json) : List Char :=
  newLine depth ++ (quoteJson entry.1.toList ++ ':' :: ' ' :: indentedChars depth entry.2)

def indentedEntries (depth : Nat) : List (String × Json) → List Char
  | [] => []
  | entry :: rest => indentedEntry depth entry ++ indentedLaterEntries depth rest

theorem indentedChars_array (depth : Nat) (v : Json) (rest : List Json) :
    indentedChars depth (.array (v :: rest)) =
      '[' :: (indentedItems (depth + 1) (v :: rest) ++ newLine depth) ++ [']'] := by
  simp [indentedChars, indentedItems]

theorem indentedItems_cons_cons (depth : Nat) (v w : Json) (rest : List Json) :
    indentedItems depth (v :: w :: rest) =
      newLine depth ++ indentedChars depth v ++ ',' :: indentedItems depth (w :: rest) := by
  simp [indentedItems, indentedLaterItems]

theorem indentedChars_object (depth : Nat) (e : String × Json) (rest : List (String × Json)) :
    indentedChars depth (.object (e :: rest)) =
      '{' :: (indentedEntries (depth + 1) (e :: rest) ++ newLine depth) ++ ['}'] := by
  simp [indentedChars, indentedEntries, indentedEntry]

theorem indentedEntries_cons_cons (depth : Nat) (e f : String × Json)
    (rest : List (String × Json)) : indentedEntries depth (e :: f :: rest) =
      indentedEntry depth e ++ ',' :: indentedEntries depth (f :: rest) := by
  simp [indentedEntries, indentedEntry, indentedLaterEntries]

theorem spelledEntry_indentedEntry {depth : Nat} {entry : String × Json} {back : List Char}
    (value : Spelled entry.2 (indentedChars depth entry.2)) (blank : Blank back) :
    SpelledEntry entry (indentedEntry depth entry ++ back) := by
  -- The blank after the colon belongs to the value.
  have padded := Padded.mk blank_space value blank
  have spelled : SpelledEntry (entry.1, entry.2) _ := .mk (blank_newLine depth) blank_nil padded
  simpa [indentedEntry] using spelled

mutual

theorem spelled_indentedChars (depth : Nat) : (value : Json) → value.isNumberless = true →
    Spelled value (indentedChars depth value)
  | .null, _ => .null
  | .bool value, _ => .bool value
  | .text s, _ => .text s
  | .array [], _ => .emptyArray blank_nil
  | .array (v :: rest), numberless => by
    rw [indentedChars_array]
    exact .array (spelledItems_indentedItems (depth + 1) (blank_newLine depth) (v :: rest)
      (by simp) numberless)
  | .object [], _ => .emptyObject blank_nil
  | .object (e :: rest), numberless => by
    rw [indentedChars_object]
    exact .object (spelledEntries_indentedEntries (depth + 1) (blank_newLine depth) (e :: rest)
      (by simp) numberless)
termination_by structural value => value

/-- The blank before the closing bracket belongs to the last item. -/
theorem spelledItems_indentedItems (depth : Nat) {back : List Char} (blank : Blank back) :
    (items : List Json) → items ≠ [] → areNumberless items = true →
      SpelledItems items (indentedItems depth items ++ back)
  | [], nonempty, _ => absurd rfl nonempty
  | [v], _, numberless => by
    have value : v.isNumberless = true := by simpa [areNumberless] using numberless
    have padded := Padded.mk (blank_newLine depth) (spelled_indentedChars depth v value) blank
    simpa [indentedItems, indentedLaterItems] using SpelledItems.last padded
  | v :: w :: rest, _, numberless => by
    obtain ⟨value, later⟩ := Bool.and_eq_true_iff.mp numberless
    have padded := Padded.mk (blank_newLine depth) (spelled_indentedChars depth v value) blank_nil
    have others := spelledItems_indentedItems depth blank (w :: rest) (by simp) later
    simpa [indentedItems_cons_cons] using SpelledItems.more padded others
termination_by structural items => items

theorem spelledEntries_indentedEntries (depth : Nat) {back : List Char} (blank : Blank back) :
    (entries : List (String × Json)) → entries ≠ [] → areEntriesNumberless entries = true →
      SpelledEntries entries (indentedEntries depth entries ++ back)
  | [], nonempty, _ => absurd rfl nonempty
  | [(k, v)], _, numberless => by
    have value : v.isNumberless = true := by simpa [areEntriesNumberless] using numberless
    have entry : SpelledEntry (k, v) (indentedEntry depth (k, v) ++ back) :=
      spelledEntry_indentedEntry (spelled_indentedChars depth v value) blank
    rw [indentedEntries, indentedLaterEntries, List.append_nil]
    exact .last entry
  | (k, v) :: e :: rest, _, numberless => by
    obtain ⟨value, later⟩ := Bool.and_eq_true_iff.mp numberless
    have entry : SpelledEntry (k, v) (indentedEntry depth (k, v) ++ []) :=
      spelledEntry_indentedEntry (spelled_indentedChars depth v value) blank_nil
    have others := spelledEntries_indentedEntries depth blank (e :: rest) (by simp) later
    rw [List.append_nil] at entry
    rw [indentedEntries_cons_cons, List.append_assoc]
    exact .more entry others
termination_by structural entries => entries

end

end SchemaTypes.Json
