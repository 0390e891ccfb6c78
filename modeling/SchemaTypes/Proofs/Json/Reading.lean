import SchemaTypes.Proofs.Json.Quoted
import SchemaTypes.Proofs.Json.Spelling

/-!
# Reading spelled values

The reader takes every spelling of a value, and makes the tree of that value of it.
-/
namespace SchemaTypes.Json

open Text

mutual

/-- The number of containers that stand one inside the other. -/
def nesting : Json → Nat
  | .array items => itemsNesting items + 1
  | .object entries => entriesNesting entries + 1
  | .null | .bool _ | .number _ | .text _ => 0
termination_by structural value => value

def itemsNesting : List Json → Nat
  | [] => 0
  | value :: rest => max value.nesting (itemsNesting rest)
termination_by structural items => items

def entriesNesting : List (String × Json) → Nat
  | [] => 0
  | (_, value) :: rest => max value.nesting (entriesNesting rest)
termination_by structural entries => entries

end

/-- What stands in a container nests less deep than it. -/
theorem nesting_lt_of_item {value : Json} {items : List Json} (member : value ∈ items) :
    value.nesting < (Json.array items).nesting := by
  have below : value.nesting ≤ itemsNesting items := by
    induction items with
    | nil => cases member
    | cons first rest ih =>
      rw [itemsNesting]
      rcases List.mem_cons.mp member with rfl | later
      · exact Nat.le_max_left _ _
      · exact Nat.le_trans (ih later) (Nat.le_max_right _ _)
  exact Nat.lt_succ_of_le below

theorem nesting_lt_of_entry (key : String) {value : Json} {entries : List (String × Json)}
    (member : (key, value) ∈ entries) : value.nesting < (Json.object entries).nesting := by
  have below : value.nesting ≤ entriesNesting entries := by
    induction entries with
    | nil => cases member
    | cons first rest ih =>
      rw [entriesNesting]
      rcases List.mem_cons.mp member with rfl | later
      · exact Nat.le_max_left _ _
      · exact Nat.le_trans (ih later) (Nat.le_max_right _ _)
  exact Nat.lt_succ_of_le below

/-! ### Trees of values -/

theorem Tree.ofEntries_eq_map (entries : List (String × Json)) :
    Tree.ofEntries entries = entries.map fun e => (e.1, Tree.ofJson e.2) := by
  induction entries with
  | nil => rfl
  | cons e rest ih => rw [Tree.ofEntries, ih, List.map_cons]

mutual

/-- The tree of a value has all its content. -/
theorem Tree.isReadable_ofJson : (value : Json) → (Tree.ofJson value).isReadable = true
  | .null | .bool _ | .number _ | .text _ => rfl
  | .array items => Tree.areReadable_ofItems items
  | .object entries => Tree.areEntriesReadable_ofEntries entries
termination_by structural value => value

theorem Tree.areReadable_ofItems : (items : List Json) →
    Tree.areReadable (Tree.ofItems items) = true
  | [] => rfl
  | value :: rest => by
    rw [Tree.ofItems, Tree.areReadable, Tree.isReadable_ofJson value,
      Tree.areReadable_ofItems rest]
    rfl
termination_by structural items => items

theorem Tree.areEntriesReadable_ofEntries : (entries : List (String × Json)) →
    Tree.areEntriesReadable (Tree.ofEntries entries) = true
  | [] => rfl
  | (_, value) :: rest => by
    rw [Tree.ofEntries, Tree.areEntriesReadable, Tree.isReadable_ofJson value,
      Tree.areEntriesReadable_ofEntries rest]
    rfl
termination_by structural entries => entries

end

/-! ### Blanks -/

theorem skipSpace_blank {blank : List Char} (isBlank : Blank blank) (cs : List Char) :
    skipSpace (blank ++ cs) = skipSpace cs := by
  induction blank with
  | nil => rfl
  | cons c rest ih =>
    have space : isSpace c = true := isBlank c List.mem_cons_self
    have later : Blank rest := fun d member => isBlank d (List.mem_cons_of_mem c member)
    rw [List.cons_append, skipSpace, List.dropWhile_cons_of_pos space]
    exact ih later

theorem skipSpace_cons {c : Char} (visible : isSpace c = false) (cs : List Char) :
    skipSpace (c :: cs) = c :: cs := by
  simp [skipSpace, visible]

theorem valueAt_blank {blank : List Char} (isBlank : Blank blank) (levels fuel : Nat)
    (cs : List Char) : valueAt levels fuel (blank ++ cs) = valueAt levels fuel cs := by
  cases fuel with
  | zero => rfl
  | succ fuel => rw [valueAt, valueAt, skipSpace_blank isBlank]

/-! ### First characters -/

/-- A value starts with a character that is neither a blank nor a closing bracket. -/
theorem Spelled.first {value : Json} {cs : List Char} (spelled : Spelled value cs) :
    ∃ c rest, cs = c :: rest ∧ isSpace c = false ∧ c ≠ ']' := by
  cases spelled with
  | bool value => cases value <;> exact ⟨_, _, rfl, by decide, by decide⟩
  | _ => exact ⟨_, _, rfl, by decide, by decide⟩

theorem Padded.first {value : Json} {cs : List Char} (padded : Padded value cs)
    (rest : List Char) : ∃ c later, skipSpace (cs ++ rest) = c :: later ∧ c ≠ ']' := by
  rcases padded with @⟨_, front, ds, back, blank, spelled, -⟩
  obtain ⟨c, later, rfl, visible, other⟩ := spelled.first
  have skipped : skipSpace (front ++ (c :: later ++ back) ++ rest) =
      c :: (later ++ back ++ rest) := by
    rw [List.append_assoc, skipSpace_blank blank]
    exact skipSpace_cons visible _
  exact ⟨c, _, skipped, other⟩

theorem SpelledItems.first {items : List Json} {cs : List Char} (spelled : SpelledItems items cs)
    (rest : List Char) : ∃ c later, skipSpace (cs ++ rest) = c :: later ∧ c ≠ ']' := by
  cases spelled with
  | last padded => exact padded.first rest
  | more padded _ =>
    rw [List.append_assoc]
    exact padded.first _

theorem SpelledEntry.first {entry : String × Json} {cs : List Char}
    (spelled : SpelledEntry entry cs) (rest : List Char) :
    ∃ later, skipSpace (cs ++ rest) = '"' :: later := by
  rcases spelled with @⟨key, _, front, _, _, blank, -, -⟩
  rw [List.append_assoc, skipSpace_blank blank, quoteJson]
  exact ⟨_, skipSpace_cons (by decide) _⟩

theorem SpelledEntries.first {entries : List (String × Json)} {cs : List Char}
    (spelled : SpelledEntries entries cs) (rest : List Char) :
    ∃ later, skipSpace (cs ++ rest) = '"' :: later := by
  cases spelled with
  | last entry => exact entry.first rest
  | more entry _ =>
    rw [List.append_assoc]
    exact entry.first _

/-! ### One step of the reader -/

variable {levels fuel : Nat} {cs rest : List Char}

theorem quoteJson_append (s : String) (rest : List Char) : quoteJson s.toList ++ rest =
    '"' :: (s.toList.flatMap escapeJsonChar ++ '"' :: rest) := by
  simp [quoteJson]

theorem valueAt_text (s : String) : valueAt levels (fuel + 1) (quoteJson s.toList ++ rest) =
    some (.text s, rest) := by
  rw [quoteJson_append, valueAt, skipSpace_cons (by decide)]
  simp [stringRest_escaped]

theorem valueAt_null :
    valueAt levels (fuel + 1) ("null".toList ++ rest) = some (.null, rest) := by
  simp [valueAt, skipSpace, isSpace, afterWord]

theorem valueAt_bool (value : Bool) :
    valueAt levels (fuel + 1) ((if value then "true" else "false").toList ++ rest) =
      some (.bool value, rest) := by
  cases value <;> simp [valueAt, skipSpace, isSpace, afterWord]

theorem valueAt_emptyArray {blank : List Char} (isBlank : Blank blank) :
    valueAt (levels + 1) (fuel + 1) ('[' :: blank ++ [']'] ++ rest) =
      some (.array [], rest) := by
  have closed : skipSpace (blank ++ ']' :: rest) = ']' :: rest := by
    rw [skipSpace_blank isBlank, skipSpace_cons (by decide)]
  rw [List.append_assoc, List.cons_append, valueAt, skipSpace_cons (by decide)]
  simp [closed, within]

theorem valueAt_emptyObject {blank : List Char} (isBlank : Blank blank) :
    valueAt (levels + 1) (fuel + 1) ('{' :: blank ++ ['}'] ++ rest) =
      some (.object [], rest) := by
  have closed : skipSpace (blank ++ '}' :: rest) = '}' :: rest := by
    rw [skipSpace_blank isBlank, skipSpace_cons (by decide)]
  rw [List.append_assoc, List.cons_append, valueAt, skipSpace_cons (by decide)]
  simp [closed, within]

theorem valueAt_array {items : List Tree}
    (first : ∃ c later, skipSpace cs = c :: later ∧ c ≠ ']')
    (inner : itemsAt levels fuel cs = some (items, rest)) :
    valueAt (levels + 1) (fuel + 1) ('[' :: cs) = some (.array items, rest) := by
  obtain ⟨c, later, first, other⟩ := first
  rw [valueAt, skipSpace_cons (by decide)]
  simp [first, inner, other, within]

theorem valueAt_object {entries : List (Option String × Tree)}
    (first : ∃ later, skipSpace cs = '"' :: later)
    (inner : entriesAt levels fuel cs = some (entries, rest)) :
    valueAt (levels + 1) (fuel + 1) ('{' :: cs) = some (objectOf entries, rest) := by
  obtain ⟨later, first⟩ := first
  rw [valueAt, skipSpace_cons (by decide)]
  simp [first, inner, within]

theorem itemsAt_last {tree : Tree} {after : List Char}
    (value : valueAt levels fuel cs = some (tree, after)) (close : skipSpace after = ']' :: rest) :
    itemsAt levels (fuel + 1) cs = some ([tree], rest) := by
  rw [itemsAt, value]
  simp [close]

theorem itemsAt_more {tree : Tree} {trees : List Tree} {after ds : List Char}
    (value : valueAt levels fuel cs = some (tree, after)) (comma : skipSpace after = ',' :: ds)
    (later : itemsAt levels fuel ds = some (trees, rest)) :
    itemsAt levels (fuel + 1) cs = some (tree :: trees, rest) := by
  rw [itemsAt, value]
  simp [comma, later]

/-- The text of an entry is read up to its colon. -/
theorem exists_key (key : String) (cs : List Char) {front back : List Char}
    (blankFront : Blank front) (blankBack : Blank back) : ∃ quoted after,
      skipSpace (front ++ (quoteJson key.toList ++ (back ++ ':' :: cs))) = '"' :: quoted ∧
        stringRest quoted = some (some key, after) ∧ skipSpace after = ':' :: cs := by
  refine ⟨key.toList.flatMap escapeJsonChar ++ '"' :: (back ++ ':' :: cs), back ++ ':' :: cs,
    ?_, ?_, ?_⟩
  · rw [skipSpace_blank blankFront, quoteJson_append, skipSpace_cons (by decide)]
  · rw [stringRest_escaped, String.ofList_toList]
  · rw [skipSpace_blank blankBack, skipSpace_cons (by decide)]

theorem entriesAt_last {key : String} {tree : Tree} {front back after : List Char}
    (blankFront : Blank front) (blankBack : Blank back)
    (value : valueAt levels fuel cs = some (tree, after)) (close : skipSpace after = '}' :: rest) :
    entriesAt levels (fuel + 1) (front ++ (quoteJson key.toList ++ (back ++ ':' :: cs))) =
      some ([(some key, tree)], rest) := by
  obtain ⟨_, _, quote, read, colon⟩ := exists_key key cs blankFront blankBack
  rw [entriesAt, quote]
  simp [read, colon, value, close]

theorem entriesAt_more {key : String} {tree : Tree} {entries : List (Option String × Tree)}
    {front back after ds : List Char} (blankFront : Blank front) (blankBack : Blank back)
    (value : valueAt levels fuel cs = some (tree, after)) (comma : skipSpace after = ',' :: ds)
    (later : entriesAt levels fuel ds = some (entries, rest)) :
    entriesAt levels (fuel + 1) (front ++ (quoteJson key.toList ++ (back ++ ':' :: cs))) =
      some ((some key, tree) :: entries, rest) := by
  obtain ⟨_, _, quote, read, colon⟩ := exists_key key cs blankFront blankBack
  rw [entriesAt, quote]
  simp [read, colon, value, comma, later]

/-! ### Every spelling

A call of the reader takes at most two units of fuel for each character of a value. -/

/-- Wherever the text stands in front, the tree of the value is read from it. -/
def Reads (value : Json) (cs : List Char) : Prop :=
  ∀ levels fuel rest, value.nesting ≤ levels → 2 * cs.length ≤ fuel →
    valueAt levels fuel (cs ++ rest) = some (.ofJson value, rest)

/-- The tree is read, and what comes after the text is left to read. -/
def ReadsPadded (value : Json) (cs : List Char) : Prop :=
  ∀ levels fuel rest, value.nesting ≤ levels → 2 * cs.length ≤ fuel →
    ∃ after, valueAt levels fuel (cs ++ rest) = some (.ofJson value, after) ∧
      skipSpace after = skipSpace rest

/-- The trees of the items are read up to the bracket that closes the array. -/
def ReadsItems (items : List Json) (cs : List Char) : Prop :=
  ∀ levels fuel rest, itemsNesting items ≤ levels → 2 * cs.length < fuel →
    itemsAt levels fuel (cs ++ ']' :: rest) = some (Tree.ofItems items, rest)

/-- The entries with the trees of their values. -/
def readEntries (entries : List (String × Json)) : List (Option String × Tree) :=
  entries.map fun e => (some e.1, Tree.ofJson e.2)

/-- The entries are read up to the brace that closes the object. -/
def ReadsEntries (entries : List (String × Json)) (cs : List Char) : Prop :=
  ∀ levels fuel rest, entriesNesting entries ≤ levels → 2 * cs.length < fuel →
    entriesAt levels fuel (cs ++ '}' :: rest) = some (readEntries entries, rest)

theorem objectOf_readEntries (entries : List (String × Json)) :
    objectOf (readEntries entries) = .ofJson (.object entries) := by
  have all : (readEntries entries).mapM (fun e => e.1.map (·, e.2)) =
      some (Tree.ofEntries entries) := by
    induction entries with
    | nil => rfl
    | cons e rest ih =>
      rw [readEntries] at ih
      simp [readEntries, Tree.ofEntries, ih]
  rw [objectOf, all, Tree.ofJson]

theorem Reads.padded {value : Json} {front cs back : List Char} (reads : Reads value cs)
    (blankFront : Blank front) (blankBack : Blank back) :
    ReadsPadded value (front ++ (cs ++ back)) := by
  intro levels fuel rest shallow enough
  have fuelled : 2 * cs.length ≤ fuel := by
    simp only [List.length_append] at enough
    omega
  refine ⟨back ++ rest, ?_, skipSpace_blank blankBack rest⟩
  rw [List.append_assoc, valueAt_blank blankFront, List.append_assoc]
  exact reads levels fuel (back ++ rest) shallow fuelled

theorem reads_null : Reads .null "null".toList := by
  intro levels fuel rest _ enough
  obtain ⟨fuel, rfl⟩ := Nat.exists_eq_add_one.mpr (Nat.lt_of_lt_of_le (by decide) enough)
  exact valueAt_null

theorem reads_bool (value : Bool) :
    Reads (.bool value) (if value then "true" else "false").toList := by
  intro levels fuel rest _ enough
  have some : 0 < 2 * (if value then "true" else "false").toList.length := by
    cases value <;> decide
  obtain ⟨fuel, rfl⟩ := Nat.exists_eq_add_one.mpr (Nat.lt_of_lt_of_le some enough)
  exact valueAt_bool value

theorem reads_text (s : String) : Reads (.text s) (quoteJson s.toList) := by
  intro levels fuel rest _ enough
  have some : 0 < 2 * (quoteJson s.toList).length := by simp [quoteJson]
  obtain ⟨fuel, rfl⟩ := Nat.exists_eq_add_one.mpr (Nat.lt_of_lt_of_le some enough)
  exact valueAt_text s

/-- A container opens one level, and its brackets pay for the calls that are its own. -/
theorem exists_inner {cs : List Char} {opening closing : Char} {inside levels fuel : Nat}
    (shallow : inside + 1 ≤ levels)
    (enough : 2 * (opening :: cs ++ [closing]).length ≤ fuel) :
    ∃ l f, levels = l + 1 ∧ fuel = f + 1 ∧ inside ≤ l ∧ 2 * cs.length < f := by
  simp only [List.length_append, List.length_cons, List.length_nil] at enough
  exact ⟨levels - 1, fuel - 1, by omega, by omega, by omega, by omega⟩

theorem reads_emptyArray {blank : List Char} (isBlank : Blank blank) :
    Reads (.array []) ('[' :: blank ++ [']']) := by
  intro levels fuel rest shallow enough
  obtain ⟨levels, fuel, rfl, rfl, -, -⟩ := exists_inner shallow enough
  exact valueAt_emptyArray isBlank

theorem reads_array {items : List Json} {cs : List Char} (spelled : SpelledItems items cs)
    (reads : ReadsItems items cs) : Reads (.array items) ('[' :: cs ++ [']']) := by
  intro levels fuel rest shallow enough
  obtain ⟨levels, fuel, rfl, rfl, shallow, enough⟩ := exists_inner shallow enough
  have text : '[' :: cs ++ [']'] ++ rest = '[' :: (cs ++ ']' :: rest) := by simp
  rw [text, Tree.ofJson]
  exact valueAt_array (spelled.first _) (reads levels fuel rest shallow enough)

theorem reads_emptyObject {blank : List Char} (isBlank : Blank blank) :
    Reads (.object []) ('{' :: blank ++ ['}']) := by
  intro levels fuel rest shallow enough
  obtain ⟨levels, fuel, rfl, rfl, -, -⟩ := exists_inner shallow enough
  exact valueAt_emptyObject isBlank

theorem reads_object {entries : List (String × Json)} {cs : List Char}
    (spelled : SpelledEntries entries cs) (reads : ReadsEntries entries cs) :
    Reads (.object entries) ('{' :: cs ++ ['}']) := by
  intro levels fuel rest shallow enough
  obtain ⟨levels, fuel, rfl, rfl, shallow, enough⟩ := exists_inner shallow enough
  have text : '{' :: cs ++ ['}'] ++ rest = '{' :: (cs ++ '}' :: rest) := by simp
  rw [text, ← objectOf_readEntries]
  exact valueAt_object (spelled.first _) (reads levels fuel rest shallow enough)

theorem readsItems_last {value : Json} {cs : List Char} (reads : ReadsPadded value cs) :
    ReadsItems [value] cs := by
  intro levels fuel rest shallow enough
  obtain ⟨fuel, rfl⟩ := Nat.exists_eq_add_one.mpr (Nat.zero_lt_of_lt enough)
  have alone : value.nesting ≤ levels := by simpa [itemsNesting] using shallow
  -- Blanks after the value are left to read, and the bracket comes after them.
  obtain ⟨after, read, closes⟩ := reads levels fuel (']' :: rest) alone (by omega)
  rw [skipSpace_cons (by decide)] at closes
  exact itemsAt_last read closes

theorem readsItems_more {value : Json} {items : List Json} {cs ds : List Char}
    (reads : ReadsPadded value cs) (later : ReadsItems items ds) :
    ReadsItems (value :: items) (cs ++ ',' :: ds) := by
  intro levels fuel rest shallow enough
  obtain ⟨fuel, rfl⟩ := Nat.exists_eq_add_one.mpr (Nat.zero_lt_of_lt enough)
  simp only [List.length_append, List.length_cons] at enough
  obtain ⟨first, others⟩ := Nat.max_le.mp shallow
  obtain ⟨after, read, separates⟩ :=
    reads levels fuel (',' :: (ds ++ ']' :: rest)) first (by omega)
  rw [skipSpace_cons (by decide)] at separates
  rw [List.append_assoc]
  exact itemsAt_more read separates (later levels fuel rest others (by omega))

theorem readsEntries_last {key : String} {value : Json} {front back cs : List Char}
    (blankFront : Blank front) (blankBack : Blank back) (reads : ReadsPadded value cs) :
    ReadsEntries [(key, value)] (front ++ (quoteJson key.toList ++ (back ++ ':' :: cs))) := by
  intro levels fuel rest shallow enough
  obtain ⟨fuel, rfl⟩ := Nat.exists_eq_add_one.mpr (Nat.zero_lt_of_lt enough)
  simp only [List.length_append, List.length_cons] at enough
  have alone : value.nesting ≤ levels := by simpa [entriesNesting] using shallow
  obtain ⟨after, read, closes⟩ := reads levels fuel ('}' :: rest) alone (by omega)
  rw [skipSpace_cons (by decide)] at closes
  simp only [List.append_assoc, List.cons_append]
  exact entriesAt_last blankFront blankBack read closes

theorem readsEntries_more {key : String} {value : Json} {entries : List (String × Json)}
    {front back cs ds : List Char} (blankFront : Blank front) (blankBack : Blank back)
    (reads : ReadsPadded value cs) (later : ReadsEntries entries ds) :
    ReadsEntries ((key, value) :: entries)
      (front ++ (quoteJson key.toList ++ (back ++ ':' :: cs)) ++ ',' :: ds) := by
  intro levels fuel rest shallow enough
  obtain ⟨fuel, rfl⟩ := Nat.exists_eq_add_one.mpr (Nat.zero_lt_of_lt enough)
  simp only [List.length_append, List.length_cons] at enough
  obtain ⟨first, others⟩ := Nat.max_le.mp shallow
  obtain ⟨after, read, separates⟩ :=
    reads levels fuel (',' :: (ds ++ '}' :: rest)) first (by omega)
  rw [skipSpace_cons (by decide)] at separates
  simp only [List.append_assoc, List.cons_append]
  exact entriesAt_more blankFront blankBack read separates
    (later levels fuel rest others (by omega))

mutual

theorem Spelled.reads : {value : Json} → {cs : List Char} → Spelled value cs → Reads value cs
  | _, _, .null => reads_null
  | _, _, .bool value => reads_bool value
  | _, _, .text s => reads_text s
  | _, _, .emptyArray blank => reads_emptyArray blank
  | _, _, .array items => reads_array items items.reads
  | _, _, .emptyObject blank => reads_emptyObject blank
  | _, _, .object entries => reads_object entries entries.reads

theorem Padded.reads :
    {value : Json} → {cs : List Char} → Padded value cs → ReadsPadded value cs
  | _, _, .mk front value back => value.reads.padded front back

theorem SpelledItems.reads :
    {items : List Json} → {cs : List Char} → SpelledItems items cs → ReadsItems items cs
  | _, _, .last value => readsItems_last value.reads
  | _, _, .more value later => readsItems_more value.reads later.reads

theorem SpelledEntries.reads : {entries : List (String × Json)} → {cs : List Char} →
    SpelledEntries entries cs → ReadsEntries entries cs
  | _, _, .last (.mk front back value) => readsEntries_last front back value.reads
  | _, _, .more (.mk front back value) later =>
    readsEntries_more front back value.reads later.reads

end

/-! ### Whole texts -/

/-- Every spelling of a value that does not nest too deep is read as its tree. -/
theorem read_spelled {value : Json} {cs : List Char} (spelled : Padded value cs)
    (shallow : value.nesting ≤ nestingLimit) :
    Json.read (String.ofList cs) = some (.ofJson value) := by
  obtain ⟨after, read, finished⟩ :=
    spelled.reads nestingLimit (2 * cs.length + 2) [] shallow (Nat.le_add_right _ 2)
  rw [List.append_nil] at read
  have nothing : skipSpace after = [] := finished
  rw [Json.read, String.toList_ofList, readChars, read]
  simp [nothing]

end SchemaTypes.Json
