import SchemaTypes.Proofs.Document.Pointer

/-!
# Pointers to schema keys

The last segment of a pointer spells a schema key, with escapes for its tildes and slashes. The
pointer is trimmed before it is read, and the key stands last in it. So the pointer designates the
key without the blanks at its end. The blanks at its start are inside of the pointer and stay.
-/
namespace SchemaTypes.Document.Pointer

variable {key segment : List Char}

/-! ### Escaping -/

/-- Writes the two characters `a b` for each occurrence of one character. -/
def writePair (stand : Char) (a b : Char) (cs : List Char) : List Char :=
  cs.flatMap fun c => if c = stand then [a, b] else [c]

/-- A key as a segment: `~0` for each tilde, and then `~1` for each slash. -/
def escapeChars (key : List Char) : List Char :=
  writePair '/' '~' '1' (writePair '~' '~' '0' key)

def escape (key : String) : String :=
  String.ofList (escapeChars key.toList)

/-- What stands in a segment for a character of the key. -/
def spellChar (c : Char) : List Char :=
  if c = '~' then ['~', '0'] else if c = '/' then ['~', '1'] else [c]

/-- The slashes are escaped after the tildes, but no escape of a tilde has a slash in it. -/
theorem escapeChars_eq_flatMap (key : List Char) : escapeChars key = key.flatMap spellChar := by
  rw [escapeChars, writePair, writePair, List.flatMap_assoc]
  refine List.flatMap_congr fun c _ => ?_
  unfold spellChar
  split
  · rfl
  · simp

theorem slash_not_mem_spellChar (c : Char) : '/' ∉ spellChar c := by
  unfold spellChar
  split
  · decide
  · split
    · decide
    next notSlash => simpa using Ne.symm notSlash

theorem slash_not_mem_escapeChars (key : List Char) : '/' ∉ escapeChars key := by
  rw [escapeChars_eq_flatMap]
  intro member
  obtain ⟨c, -, spelled⟩ := List.mem_flatMap.mp member
  exact slash_not_mem_spellChar c spelled

/-! ### Reading a segment -/

/-- Replacing the pairs for the slashes leaves the key with its tildes escaped: the pair that begins
with an escaped tilde is never the one for a slash. -/
theorem replacePair_slash (key : List Char) :
    replacePair '~' '1' '/' (key.flatMap spellChar) = writePair '~' '~' '0' key := by
  induction key with
  | nil => rfl
  | cons c rest ih =>
    rw [writePair] at ih ⊢
    rw [List.flatMap_cons, List.flatMap_cons, spellChar]
    by_cases tilde : c = '~'
    · rw [if_pos tilde, if_pos tilde]
      have zero : replacePair '~' '1' '/' ('0' :: rest.flatMap spellChar) = _ :=
        replacePair_cons (by decide) _
      change replacePair '~' '1' '/' ('~' :: '0' :: rest.flatMap spellChar) = _
      rw [replacePair, if_neg (by decide), zero, ih]
      rfl
    · rw [if_neg tilde, if_neg tilde]
      by_cases slash : c = '/'
      · rw [if_pos slash, slash]
        change replacePair '~' '1' '/' ('~' :: '1' :: rest.flatMap spellChar) = _
        rw [replacePair, if_pos (by decide), ih]
        rfl
      · rw [if_neg slash, List.singleton_append, replacePair_cons tilde, ih]
        rfl

theorem replacePair_tilde (key : List Char) :
    replacePair '~' '0' '~' (writePair '~' '~' '0' key) = key := by
  induction key with
  | nil => rfl
  | cons c rest ih =>
    rw [writePair] at ih ⊢
    rw [List.flatMap_cons]
    by_cases tilde : c = '~'
    · rw [if_pos tilde, tilde]
      change replacePair '~' '0' '~' ('~' :: '0' :: rest.flatMap _) = _
      rw [replacePair, if_pos (by decide), ih]
    · rw [if_neg tilde, List.singleton_append, replacePair_cons tilde, ih]

/-- Whatever tildes, slashes and digits are in a key, its segment is read as the key. -/
theorem unescape_escapeChars (key : List Char) : unescape (escapeChars key) = key := by
  rw [unescape, escapeChars_eq_flatMap, replacePair_slash, replacePair_tilde]

/-! ### Trimming -/

/-- What is behind a slash is trimmed on its own, since the slash is no blank. -/
theorem rdropWhile_append_slash (path segment : List Char) :
    (path ++ '/' :: segment).rdropWhile Text.isBlank =
      path ++ '/' :: segment.rdropWhile Text.isBlank := by
  induction segment using List.reverseRecOn with
  | nil =>
    have slash : ¬ Text.isBlank '/' = true := by decide
    exact List.rdropWhile_concat_neg Text.isBlank path '/' slash
  | append_singleton cs c ih =>
    have front : path ++ '/' :: (cs ++ [c]) = (path ++ '/' :: cs) ++ [c] := by simp
    rw [front, List.rdropWhile_concat, List.rdropWhile_concat]
    split
    · exact ih
    · simp

/-- An escape ends with a digit. -/
theorem exists_last_spellChar {c : Char} (given : ¬ Text.isBlank c = true) :
    ∃ start last, spellChar c = start ++ [last] ∧ ¬ Text.isBlank last = true := by
  unfold spellChar
  split
  · exact ⟨['~'], '0', rfl, by decide⟩
  · split
    · exact ⟨['~'], '1', rfl, by decide⟩
    · exact ⟨[], c, rfl, given⟩

/-- The blanks at the end of a key are those at the end of its segment. -/
theorem rdropWhile_escapeChars (key : List Char) :
    (escapeChars key).rdropWhile Text.isBlank = escapeChars (key.rdropWhile Text.isBlank) := by
  simp only [escapeChars_eq_flatMap]
  induction key using List.reverseRecOn with
  | nil => rfl
  | append_singleton cs c ih =>
    rw [List.flatMap_append, List.flatMap_singleton]
    by_cases blank : Text.isBlank c = true
    · -- A blank is neither a tilde nor a slash, so it stands for itself.
      have plain : spellChar c = [c] := by
        unfold spellChar
        rw [if_neg, if_neg]
        · rintro rfl
          cases blank
        · rintro rfl
          cases blank
      rw [plain, List.rdropWhile_concat_pos _ _ _ blank, List.rdropWhile_concat_pos _ _ _ blank, ih]
    · obtain ⟨start, last, spelled, notBlank⟩ := exists_last_spellChar blank
      rw [List.rdropWhile_concat_neg _ _ _ blank, List.flatMap_append, List.flatMap_singleton,
        spelled, ← List.append_assoc, List.rdropWhile_concat_neg _ _ _ notBlank]

/-! ### Pointers -/

/-- The front of a pointer into the document itself: a hash sign and a path, up to a slash. -/
def localPlace (path : String) : String :=
  "#" ++ path ++ "/"

/-- The places of schemas: in the document itself, among its definitions, among its components. -/
example : ["", "/definitions", "/components/schemas"].map localPlace =
    ["#/", "#/definitions/", schemaPlace] := by
  decide

/-- The key without the blanks at its end. -/
def trimEnd (key : String) : String :=
  String.ofList (key.toList.rdropWhile Text.isBlank)

theorem trimChars_local (path segment : List Char) :
    Text.trimChars ('#' :: (path ++ '/' :: segment)) =
      '#' :: (path ++ '/' :: segment.rdropWhile Text.isBlank) := by
  have hash : Text.isBlank '#' = false := by decide
  have front : ('#' :: (path ++ '/' :: segment)).dropWhile Text.isBlank =
      '#' :: path ++ '/' :: segment := by
    simp [hash]
  rw [Text.trimChars, front]
  exact rdropWhile_append_slash ('#' :: path) segment

theorem escapeChars_eq_nil_iff : escapeChars key = [] ↔ key = [] := by
  constructor
  · intro nothing
    rw [← unescape_escapeChars key, nothing]
    rfl
  · rintro rfl
    rfl

/-- The pointer to a key is read as the key without the blanks at its end, if anything is left. -/
theorem target_localPlace (path key : String) :
    target (localPlace path ++ escape key) =
      if trimEnd key = "" then none else some (trimEnd key) := by
  obtain ⟨kept, isKept⟩ : ∃ kept, key.toList.rdropWhile Text.isBlank = kept := ⟨_, rfl⟩
  have chars : (localPlace path ++ escape key).toList =
      '#' :: (path.toList ++ '/' :: escapeChars key.toList) := by
    simp [localPlace, escape]
  have trimmed : Text.trimChars (localPlace path ++ escape key).toList =
      '#' :: (path.toList ++ '/' :: escapeChars kept) := by
    rw [chars, trimChars_local, rdropWhile_escapeChars, isKept]
  have found : lastSegment (path.toList ++ '/' :: escapeChars kept) = escapeChars kept :=
    lastSegment_append _ (slash_not_mem_escapeChars kept)
  unfold target
  rw [trimmed, trimEnd, isKept]
  simp only [found]
  by_cases nothing : kept = []
  · subst nothing
    rfl
  · have given : String.ofList kept ≠ "" := by simpa using nothing
    rw [if_neg given]
    split
    next empty => exact absurd (escapeChars_eq_nil_iff.mp empty) nothing
    next => rw [unescape_escapeChars]

theorem trimEnd_eq_self_iff {key : String} :
    trimEnd key = key ↔ ∀ c ∈ key.toList.getLast?, Text.isBlank c = false := by
  have chars : trimEnd key = key ↔ key.toList.rdropWhile Text.isBlank = key.toList := by
    rw [trimEnd, ← String.toList_inj, String.toList_ofList]
  rw [chars, List.rdropWhile_eq_self_iff]
  constructor
  · intro notBlank c last
    obtain ⟨given, same⟩ := List.mem_getLast?_eq_getLast last
    rw [same]
    exact Bool.eq_false_iff.mpr (notBlank given)
  · intro notBlank given
    exact Bool.eq_false_iff.mp (notBlank _ (List.getLast?_eq_some_getLast given))

/-- Whatever a key is made of, the pointer to it designates the key without the blanks at its end,
and none if only blanks are there. So it designates the key itself exactly if the key does not end
with a blank and has a character at all. -/
theorem target_of_key (path key : String) :
    target (localPlace path ++ escape key) =
        (if trimEnd key = "" then none else some (trimEnd key)) ∧
      (target (localPlace path ++ escape key) = some key ↔
        key ≠ "" ∧ ∀ c ∈ key.toList.getLast?, Text.isBlank c = false) := by
  refine ⟨target_localPlace path key, ?_⟩
  rw [target_localPlace, ← trimEnd_eq_self_iff]
  constructor
  · intro designated
    split at designated
    · cases designated
    next given =>
      have same : trimEnd key = key := Option.some.inj designated
      exact ⟨same ▸ given, same⟩
  · rintro ⟨given, same⟩
    rw [same, if_neg given]

/-- Tildes, slashes and the digits of escapes, blanks and a hash sign. -/
example : ["~1/~0", " a #/ b", "~", "//"].map (fun key => target (localPlace "" ++ escape key)) =
    ["~1/~0", " a #/ b", "~", "//"].map some := by
  decide +kernel

/-- The pointer to a key with a blank at its end designates the key without the blank. -/
theorem not_always_target_of_key :
    ¬ ∀ path ∈ ["", "/definitions", "/components/schemas"], ∀ key : String, key ≠ "" →
      target (localPlace path ++ escape key) = some key := by
  intro always
  have designated : target (localPlace "/components/schemas" ++ escape "Pet ") = some "Pet " :=
    always _ (by simp) _ (by decide)
  have other : target (localPlace "/components/schemas" ++ escape "Pet ") = some "Pet" := by
    decide +kernel
  rw [other] at designated
  exact absurd designated (by decide)

end SchemaTypes.Document.Pointer
