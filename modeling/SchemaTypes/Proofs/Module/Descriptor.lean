import SchemaTypes.Module.Descriptor
import SchemaTypes.Proofs.Naming.FieldName
import SchemaTypes.Proofs.Types.Regrouping

/-!
# Descriptors are unambiguous

A reader takes a descriptor apart again. It follows the text from left to right: a parenthesis opens
a list of alternatives that a suffix closes, and any other alternative starts with a word and takes
all the suffixes after it. What the reader makes of a descriptor are the alternatives of its type,
so types with the same descriptor have the same alternatives.
-/
namespace SchemaTypes

open Naming

/-! ### Types with a descriptor -/

/-- The words in a descriptor that name no type of the module. -/
def typeWords : List String :=
  ["record", "anydata", "string", "int", "float", "decimal", "boolean"]

/-- A name that a declared type can have. -/
def IsTypeName (name : String) : Prop :=
  isIdentifier name = true ∧ name ∉ typeWords

/-- A name that some property key is given. -/
def IsFieldName (name : String) : Prop :=
  ∃ reserved key, name = fieldName reserved key

mutual

/-- No union is empty, and all names in the type are of the kind that stands there. -/
def TypeExpr.Printable : TypeExpr → Prop
  | .reference name _ => IsTypeName name
  | .record members _ => Member.AllPrintable members
  | .array element _ => element.Printable
  | .union members _ => members ≠ [] ∧ TypeExpr.AllPrintable members
  | .scalar .. | .any _ => True
termination_by structural t => t

def TypeExpr.AllPrintable : List TypeExpr → Prop
  | [] => True
  | t :: rest => t.Printable ∧ TypeExpr.AllPrintable rest
termination_by structural ts => ts

def Member.Printable : Member → Prop
  | .field name _ type _ _ => IsFieldName name ∧ type.Printable
  | .inclusion name => IsTypeName name
termination_by structural m => m

def Member.AllPrintable : List Member → Prop
  | [] => True
  | m :: rest => m.Printable ∧ Member.AllPrintable rest
termination_by structural ms => ms

end

/-! ### Reading a descriptor -/

namespace Descriptor

/-- The type admits null, too. -/
def orNull : TypeExpr → TypeExpr
  | .reference name _ => .reference name true
  | .record members _ => .record members true
  | .array element _ => .array element true
  | .union members _ => .union members true
  | .scalar kind _ => .scalar kind true
  | .any _ => .any true

/-- The type with the suffixes in front of the text. Nothing can follow a question mark. -/
def suffixed (t : TypeExpr) : List Char → TypeExpr × List Char
  | '[' :: ']' :: rest => suffixed (.array t false) rest
  | '?' :: rest => (orNull t, rest)
  | rest => (t, rest)

/-- The type that a word stands for. -/
def named (word : String) : TypeExpr :=
  match [ScalarKind.string, .int, .float, .decimal, .boolean].find? (·.keyword == word) with
  | some kind => .scalar kind false
  | none => if word = "anydata" then .any false else .reference word false

/-- The field name in front of the text, with its quote and its escapes. -/
def fieldNameAt : List Char → List Char × List Char
  | '\\' :: c :: rest => ('\\' :: c :: (fieldNameAt rest).1, (fieldNameAt rest).2)
  | c :: rest =>
    if c = '\'' ∨ isIdentifierPart c = true then (c :: (fieldNameAt rest).1, (fieldNameAt rest).2)
    else ([], c :: rest)
  | [] => ([], [])

mutual

/-- The alternative in front of the text. -/
def alternativeAt : (fuel : Nat) → List Char → Option (TypeExpr × List Char)
  | 0, _ => none
  | fuel + 1, '(' :: cs => do
    let (ts, rest) ← alternativesAt fuel cs
    match rest with
    | ')' :: '?' :: rest => some (.union ts true, rest)
    | ')' :: '[' :: ']' :: rest => some (suffixed (.array (.grouped ts) false) rest)
    | _ => none
  | fuel + 1, cs =>
    let word := String.ofList (cs.takeWhile isIdentifierPart)
    let rest := cs.dropWhile isIdentifierPart
    if word = "record" then
      match rest with
      | ' ' :: '\x7b' :: rest => do
        let (members, rest) ← membersAt fuel rest
        some (suffixed (.record members false) rest)
      | _ => none
    else if word = "" then none
    else some (suffixed (named word) rest)

/-- The alternatives in front of the text, with bars between them. -/
def alternativesAt : (fuel : Nat) → List Char → Option (List TypeExpr × List Char)
  | 0, _ => none
  | fuel + 1, cs => do
    let (t, rest) ← alternativeAt fuel cs
    let (ts, rest) ← laterAt fuel rest
    some (t :: ts, rest)

def laterAt : (fuel : Nat) → List Char → Option (List TypeExpr × List Char)
  | 0, _ => none
  | fuel + 1, '|' :: cs => alternativesAt fuel cs
  | _ + 1, cs => some ([], cs)

/-- The member in front of the text. -/
def memberAt : (fuel : Nat) → List Char → Option (Member × List Char)
  | 0, _ => none
  | _ + 1, '*' :: cs =>
    match cs.dropWhile isIdentifierPart with
    | ';' :: rest => some (.inclusion (String.ofList (cs.takeWhile isIdentifierPart)), rest)
    | _ => none
  | fuel + 1, cs => do
    match ← alternativesAt fuel cs with
    | (ts, ' ' :: rest) =>
      match fieldNameAt rest with
      | (name, ';' :: rest) =>
        some (.field (String.ofList name) "" (.grouped ts) true none, rest)
      | (name, '?' :: ';' :: rest) =>
        some (.field (String.ofList name) "" (.grouped ts) false none, rest)
      | _ => none
    | _ => none

/-- The members up to the brace that closes the record, each with a blank in front. -/
def membersAt : (fuel : Nat) → List Char → Option (List Member × List Char)
  | 0, _ => none
  | _ + 1, ' ' :: '\x7d' :: rest => some ([], rest)
  | fuel + 1, ' ' :: cs => do
    let (m, rest) ← memberAt fuel cs
    let (ms, rest) ← membersAt fuel rest
    some (m :: ms, rest)
  | _ + 1, _ => none

end

/-- The alternatives that a descriptor spells. -/
def read (s : String) : Option (List TypeExpr) :=
  match alternativesAt (3 * s.toList.length + 2) s.toList with
  | some (ts, []) => some ts
  | _ => none

/-! ### Words -/

/-- No identifier goes on at the front of the text. -/
def Stops (cs : List Char) : Prop :=
  ∀ c ∈ cs.head?, isIdentifierPart c = false

theorem takeWhile_of_stops {word rest : List Char}
    (parts : ∀ c ∈ word, isIdentifierPart c = true) (stops : Stops rest) :
    (word ++ rest).takeWhile isIdentifierPart = word := by
  rw [List.takeWhile_append_of_pos parts]
  cases rest with
  | nil => simp
  | cons c rest => simp [stops c rfl]

theorem dropWhile_of_stops {word rest : List Char}
    (parts : ∀ c ∈ word, isIdentifierPart c = true) (stops : Stops rest) :
    (word ++ rest).dropWhile isIdentifierPart = rest := by
  rw [List.dropWhile_append_of_pos parts]
  cases rest with
  | nil => simp
  | cons c rest => simp [stops c rfl]

variable {fuel : Nat} {rest : List Char}

theorem alternativeAt_word {word : String} (given : word ≠ "") (notRecord : word ≠ "record")
    (parts : ∀ c ∈ word.toList, isIdentifierPart c = true) (stops : Stops rest) :
    alternativeAt (fuel + 1) (word.toList ++ rest) = some (suffixed (named word) rest) := by
  -- A parenthesis is no part of an identifier, so a word does not open a group.
  have notGroup (cs : List Char) (same : word.toList ++ rest = '(' :: cs) : False := by
    cases chars : word.toList with
    | nil => exact given (String.toList_eq_nil_iff.mp chars)
    | cons c later =>
      rw [chars, List.cons_append] at same
      have part := parts c (by simp [chars])
      rw [(List.cons.inj same).1] at part
      exact absurd part (by decide)
  rw [alternativeAt.eq_3 _ _ notGroup, takeWhile_of_stops parts stops,
    dropWhile_of_stops parts stops, String.ofList_toList]
  simp [given, notRecord]

/-! ### Suffixes -/

/-- The type with the suffixes after it, none after one that admits null. -/
def finished (t : TypeExpr) (rest : List Char) : TypeExpr × List Char :=
  if t.nullable then (t, rest) else suffixed t rest

/-- A mark with nothing after it but other suffixes is read where it stands. -/
theorem suffixed_nullMark (t : TypeExpr) (notNull : t.nullable = false) (nullable : Bool)
    (rest : List Char) : suffixed t ((nullMark nullable).toList ++ rest) =
      finished (if nullable then orNull t else t) rest := by
  cases nullable with
  | false => simp [finished, nullMark, notNull]
  | true =>
    have admits : (orNull t).nullable = true := by cases t <;> rfl
    simp [finished, nullMark, admits, suffixed]

theorem stops_nullMark (stops : Stops rest) (nullable : Bool) :
    Stops ((nullMark nullable).toList ++ rest) := by
  cases nullable with
  | false => exact stops
  | true =>
    intro c head
    obtain rfl : '?' = c := by simpa [nullMark] using head
    decide

/-- What the text has to be followed by in a list of alternatives. -/
def Ends (cs : List Char) : Prop :=
  ∀ c ∈ cs.head?, c = ')' ∨ c = ' ' ∨ c = '|'

theorem Ends.stops (ends : Ends rest) : Stops rest := by
  intro c head
  rcases ends c head with rfl | rfl | rfl <;> decide

theorem Ends.finished (ends : Ends rest) (t : TypeExpr) : finished t rest = (t, rest) := by
  have plain : suffixed t rest = (t, rest) := by
    cases rest with
    | nil => simp [suffixed]
    | cons c rest => rcases ends c rfl with rfl | rfl | rfl <;> simp [suffixed]
  rw [Descriptor.finished, plain, ite_self]

/-! ### What is read

Three calls in a row may take no character: of a member, of its alternatives and of the first of
them. So the fuel has to be more than three times the length of the text. -/

/-- The alternative is read where the text stands in front, together with the suffixes after it. -/
def ReadsAlternative (t : TypeExpr) (cs : List Char) : Prop :=
  ∀ fuel rest, Stops rest → 3 * (cs ++ rest).length < fuel →
    alternativeAt fuel (cs ++ rest) = some (finished t rest)

/-- The alternatives are read where the text stands in front, together with those after a bar. -/
def ReadsAlternatives (ts : List TypeExpr) (cs : List Char) : Prop :=
  ∀ fuel rest later after, Ends rest → 3 * (cs ++ rest).length + 1 < fuel →
    (∀ f, 3 * rest.length < f → laterAt f rest = some (later, after)) →
    alternativesAt fuel (cs ++ rest) = some (ts ++ later, after)

/-- The alternatives are read where the text stands behind another alternative. -/
def ReadsLater (ts : List TypeExpr) (cs : List Char) : Prop :=
  ∀ fuel rest later after, Ends rest → 3 * (cs ++ rest).length < fuel →
    (∀ f, 3 * rest.length < f → laterAt f rest = some (later, after)) →
    laterAt fuel (cs ++ rest) = some (ts ++ later, after)

theorem laterAt_nothing (notBar : ∀ c ∈ rest.head?, c ≠ '|') (more : 0 < fuel) :
    laterAt fuel rest = some ([], rest) := by
  obtain ⟨fuel, rfl⟩ := Nat.exists_eq_add_one.mpr more
  cases rest with
  | nil => rw [laterAt]; simp
  | cons c rest =>
    rw [laterAt]
    rintro cs same
    exact notBar c rfl (List.cons.inj same).1

/-- There is no alternative without characters. -/
theorem ReadsAlternative.ne_nil {t : TypeExpr} {cs : List Char} (reads : ReadsAlternative t cs) :
    cs ≠ [] := by
  rintro rfl
  have read : alternativeAt 1 [] = some (finished t []) := reads 1 [] (by simp [Stops]) (by simp)
  have nothing : alternativeAt 1 [] = none := by decide
  simp [nothing] at read

theorem ReadsAlternative.alternatives {t : TypeExpr} {cs : List Char}
    (reads : ReadsAlternative t cs) : ReadsAlternatives [t] cs := by
  intro fuel rest later after ends enough read
  obtain ⟨fuel, rfl⟩ := Nat.exists_eq_add_one.mpr (Nat.zero_lt_of_lt enough)
  have shorter := List.length_pos_iff.mpr reads.ne_nil
  rw [List.length_append] at enough
  rw [alternativesAt, reads fuel rest ends.stops (by rw [List.length_append]; omega), ends.finished]
  simp [read fuel (by omega)]

/-- Alternatives that no bar follows are read to their end. -/
theorem ReadsAlternatives.closed {ts : List TypeExpr} {cs : List Char}
    (reads : ReadsAlternatives ts cs) (ends : Ends rest) (notBar : ∀ c ∈ rest.head?, c ≠ '|')
    (enough : 3 * (cs ++ rest).length + 1 < fuel) :
    alternativesAt fuel (cs ++ rest) = some (ts, rest) := by
  have read := reads fuel rest [] rest ends enough
    fun f more => laterAt_nothing notBar (Nat.zero_lt_of_lt more)
  rwa [List.append_nil] at read

theorem ReadsAlternatives.later {ts : List TypeExpr} {cs : List Char}
    (reads : ReadsAlternatives ts cs) : ReadsLater ts ('|' :: cs) := by
  intro fuel rest later after ends enough read
  obtain ⟨fuel, rfl⟩ := Nat.exists_eq_add_one.mpr (Nat.zero_lt_of_lt enough)
  rw [List.cons_append, List.length_cons] at enough
  rw [List.cons_append, laterAt]
  exact reads fuel rest later after ends (by omega) read

theorem ReadsAlternatives.append {ts us : List TypeExpr} {cs ds : List Char}
    (reads : ReadsAlternatives ts cs) (others : ReadsLater us ds)
    (separated : ∀ rest, Ends rest → Ends (ds ++ rest)) :
    ReadsAlternatives (ts ++ us) (cs ++ ds) := by
  intro fuel rest later after ends enough read
  rw [List.append_assoc] at enough ⊢
  rw [List.append_assoc]
  -- What comes after the first alternatives is the others and then all that comes after them.
  refine reads fuel (ds ++ rest) (us ++ later) after (separated rest ends) enough ?_
  exact fun f more => others f rest later after ends more read

/-! ### Alternatives -/

theorem readsAlternative_word {word : String} (given : word ≠ "") (notRecord : word ≠ "record")
    (parts : ∀ c ∈ word.toList, isIdentifierPart c = true) (notNull : (named word).nullable = false)
    (nullable : Bool) :
    ReadsAlternative (if nullable then orNull (named word) else named word)
      (word.toList ++ (nullMark nullable).toList) := by
  intro fuel rest stops enough
  obtain ⟨fuel, rfl⟩ := Nat.exists_eq_add_one.mpr (Nat.zero_lt_of_lt enough)
  rw [List.append_assoc, alternativeAt_word given notRecord parts (stops_nullMark stops nullable),
    suffixed_nullMark _ notNull nullable rest]

theorem named_of_isTypeName {name : String} (typeName : IsTypeName name) :
    named name = .reference name false := by
  obtain ⟨-, other⟩ := typeName
  simp only [typeWords, List.mem_cons, List.not_mem_nil, or_false, not_or] at other
  obtain ⟨-, notAny, notString, notInt, notFloat, notDecimal, notBoolean⟩ := other
  have notScalar :
      [ScalarKind.string, .int, .float, .decimal, .boolean].find? (·.keyword == name) = none := by
    refine List.find?_eq_none.mpr fun kind _ => ?_
    rw [beq_iff_eq]
    rintro rfl
    cases kind <;> contradiction
  rw [named, notScalar]
  simp [notAny]

theorem readsAlternative_reference {name : String} (typeName : IsTypeName name) (nullable : Bool) :
    ReadsAlternative (.reference name nullable) (name.toList ++ (nullMark nullable).toList) := by
  have given : name ≠ "" := by
    rintro rfl
    exact absurd typeName.1 (by decide)
  have notRecord : name ≠ "record" := by
    rintro rfl
    exact typeName.2 (by decide)
  have notNull : (named name).nullable = false := by
    rw [named_of_isTypeName typeName]
    rfl
  have reads := readsAlternative_word given notRecord
    (fun c => isIdentifierPart_of_mem typeName.1) notNull nullable
  rw [named_of_isTypeName typeName] at reads
  cases nullable <;> exact reads

theorem named_keyword (kind : ScalarKind) : named kind.keyword = .scalar kind false := by
  cases kind <;> decide +kernel

theorem readsAlternative_scalar (kind : ScalarKind) (nullable : Bool) :
    ReadsAlternative (.scalar kind nullable)
      (kind.keyword.toList ++ (nullMark nullable).toList) := by
  have parts : ∀ c ∈ kind.keyword.toList, isIdentifierPart c = true := by
    cases kind <;> simp [ScalarKind.keyword] <;> decide
  have reads := readsAlternative_word (by cases kind <;> decide) (by cases kind <;> decide) parts
    (by rw [named_keyword]; rfl) nullable
  rw [named_keyword] at reads
  cases nullable <;> exact reads

theorem readsAlternative_any (nullable : Bool) :
    ReadsAlternative (.any nullable) ("anydata".toList ++ (nullMark nullable).toList) := by
  have any : named "anydata" = .any false := by decide +kernel
  have parts : ∀ c ∈ "anydata".toList, isIdentifierPart c = true := by
    simp
    decide
  have reads := readsAlternative_word (by decide) (by decide) parts (by rw [any]; rfl) nullable
  rw [any] at reads
  cases nullable <;> exact reads

theorem readsAlternative_union {ts : List TypeExpr} {cs : List Char}
    (reads : ReadsAlternatives ts cs) :
    ReadsAlternative (.union ts true) ('(' :: cs ++ ")?".toList) := by
  intro fuel rest _ enough
  obtain ⟨fuel, rfl⟩ := Nat.exists_eq_add_one.mpr (Nat.zero_lt_of_lt enough)
  have text : '(' :: cs ++ ")?".toList ++ rest = '(' :: (cs ++ ')' :: '?' :: rest) := by simp
  rw [text] at enough ⊢
  -- The list ends at the parenthesis, since it is no bar.
  have read : alternativesAt fuel (cs ++ ')' :: '?' :: rest) = some (ts, ')' :: '?' :: rest) := by
    refine reads.closed (by simp [Ends]) (by simp) ?_
    rw [List.length_cons] at enough
    omega
  rw [alternativeAt, read]
  rfl

theorem readsAlternative_array_group {ts : List TypeExpr} {cs : List Char}
    (reads : ReadsAlternatives ts cs) (nullable : Bool) :
    ReadsAlternative (.array (.grouped ts) nullable)
      ('(' :: cs ++ ")[]".toList ++ (nullMark nullable).toList) := by
  intro fuel rest _ enough
  obtain ⟨fuel, rfl⟩ := Nat.exists_eq_add_one.mpr (Nat.zero_lt_of_lt enough)
  obtain ⟨after, marks⟩ : ∃ after, after = (nullMark nullable).toList ++ rest := ⟨_, rfl⟩
  have text : '(' :: cs ++ ")[]".toList ++ (nullMark nullable).toList ++ rest =
      '(' :: (cs ++ ')' :: '[' :: ']' :: after) := by simp [marks]
  rw [text] at enough ⊢
  have read : alternativesAt fuel (cs ++ ')' :: '[' :: ']' :: after) =
      some (ts, ')' :: '[' :: ']' :: after) := by
    refine reads.closed (by simp [Ends]) (by simp) ?_
    rw [List.length_cons] at enough
    omega
  have suffix := suffixed_nullMark (.array (.grouped ts) false) rfl nullable rest
  rw [← marks] at suffix
  rw [alternativeAt, read]
  cases nullable <;> exact congrArg some suffix

/-- A suffix goes to the element itself where the element has no suffix that would take it. -/
theorem ReadsAlternative.array {t : TypeExpr} {cs : List Char} (reads : ReadsAlternative t cs)
    (notNull : t.nullable = false) (nullable : Bool) :
    ReadsAlternative (.array t nullable) (cs ++ "[]".toList ++ (nullMark nullable).toList) := by
  intro fuel rest _ enough
  have text : cs ++ "[]".toList ++ (nullMark nullable).toList ++ rest =
      cs ++ '[' :: ']' :: ((nullMark nullable).toList ++ rest) := by simp
  rw [text] at enough ⊢
  have suffix := suffixed_nullMark (.array t false) rfl nullable rest
  rw [reads fuel _ (by simp [Stops]; decide) enough, finished, notNull]
  cases nullable <;> exact congrArg some suffix

/-! ### Field names -/

theorem fieldNameAt_cons {c : Char} (plain : c = '\'' ∨ isIdentifierPart c = true)
    (cs : List Char) :
    fieldNameAt (c :: cs) = (c :: (fieldNameAt cs).1, (fieldNameAt cs).2) := by
  have notEscape : c ≠ '\\' := by
    rintro rfl
    revert plain
    decide
  rw [fieldNameAt.eq_2 _ _ (by simp [notEscape]), if_pos plain]

/-- What follows the name of a field. -/
def EndsName (cs : List Char) : Prop :=
  ∃ c later, cs = c :: later ∧ (c = ';' ∨ c = '?')

theorem fieldNameAt_end (ends : EndsName rest) : fieldNameAt rest = ([], rest) := by
  obtain ⟨c, later, rfl, mark⟩ := ends
  rcases mark with rfl | rfl <;> rfl

theorem fieldNameAt_escaped (ends : EndsName rest) (cs : List Char) :
    fieldNameAt (cs.flatMap escapeChar ++ rest) = (cs.flatMap escapeChar, rest) := by
  induction cs with
  | nil => exact fieldNameAt_end ends
  | cons c cs ih =>
    rw [List.flatMap_cons, List.append_assoc]
    by_cases part : isIdentifierPart c = true
    · rw [escapeChar, if_pos part, List.singleton_append, fieldNameAt_cons (Or.inr part), ih]
      rfl
    · rw [escapeChar, if_neg part]
      change ('\\' :: c :: (fieldNameAt (cs.flatMap escapeChar ++ rest)).1,
        (fieldNameAt (cs.flatMap escapeChar ++ rest)).2) = _
      rw [ih]
      rfl

/-- The name of a field is read to its end, whatever characters the key has. -/
theorem fieldNameAt_isFieldName {name : String} (fieldName : IsFieldName name)
    (ends : EndsName rest) : fieldNameAt (name.toList ++ rest) = (name.toList, rest) := by
  obtain ⟨reserved, key, rfl⟩ := fieldName
  rw [Naming.fieldName, String.toList_ofList, fieldNameChars]
  have escaped := fieldNameAt_escaped ends (Text.trimChars key.toList)
  have quoted : fieldNameAt ('\'' :: ((Text.trimChars key.toList).flatMap escapeChar ++ rest)) =
      ('\'' :: (Text.trimChars key.toList).flatMap escapeChar, rest) := by
    rw [fieldNameAt_cons (Or.inl rfl), escaped]
  -- A key that is an identifier stands as it is, with a quote in front if the word is reserved.
  by_cases identifier : isIdentifierChars (Text.trimChars key.toList) = true
  · rw [flatMap_escapeChar fun c => isIdentifierPart_of_mem identifier] at escaped quoted
    rw [if_pos identifier]
    split
    · exact quoted
    · exact escaped
  · rw [if_neg identifier]
    exact quoted

/-! ### Members -/

/-- The member is read where the text stands in front. -/
def ReadsMember (m : Member) (cs : List Char) : Prop :=
  ∀ fuel rest, 3 * (cs ++ rest).length + 2 < fuel →
    memberAt fuel (cs ++ rest) = some (m, rest)

/-- The members are read where the text stands before the brace that closes a record. -/
def ReadsMembers (ms : List Member) (cs : List Char) : Prop :=
  ∀ fuel rest, 3 * (cs ++ ' ' :: '\x7d' :: rest).length < fuel →
    membersAt fuel (cs ++ ' ' :: '\x7d' :: rest) = some (ms, rest)

theorem readsMember_inclusion {name : String} (typeName : IsTypeName name) :
    ReadsMember (.inclusion name) ('*' :: name.toList ++ [';']) := by
  intro fuel rest enough
  obtain ⟨fuel, rfl⟩ := Nat.exists_eq_add_one.mpr (Nat.zero_lt_of_lt enough)
  have text : '*' :: name.toList ++ [';'] ++ rest = '*' :: (name.toList ++ ';' :: rest) := by simp
  have parts : ∀ c ∈ name.toList, isIdentifierPart c = true :=
    fun c => isIdentifierPart_of_mem typeName.1
  have stops : Stops (';' :: rest) := by
    simp [Stops]
    decide
  rw [text, memberAt, dropWhile_of_stops parts stops, takeWhile_of_stops parts stops]
  simp

/-- No alternative starts with a character that no name starts with, apart from a parenthesis. -/
theorem alternativesAt_foreign {c : Char} (foreign : isIdentifierPart c = false) (other : c ≠ '(')
    (fuel : Nat) (cs : List Char) : alternativesAt fuel (c :: cs) = none := by
  have nothing (fuel : Nat) : alternativeAt fuel (c :: cs) = none := by
    cases fuel with
    | zero => rfl
    | succ fuel =>
      rw [alternativeAt.eq_3 _ _ (by simp [other])]
      simp [foreign]
  cases fuel with
  | zero => rfl
  | succ fuel => simp [alternativesAt, nothing]

theorem ReadsAlternatives.field {ts : List TypeExpr} {cs : List Char} {name : String}
    (reads : ReadsAlternatives ts cs) (fieldName : IsFieldName name) (needed : Bool) :
    ReadsMember (.field name "" (.grouped ts) needed none)
      (cs ++ " ".toList ++ name.toList ++ (missingMark needed).toList ++ [';']) := by
  intro fuel rest enough
  obtain ⟨fuel, rfl⟩ := Nat.exists_eq_add_one.mpr (Nat.zero_lt_of_lt enough)
  obtain ⟨spelled, text⟩ : ∃ spelled,
      spelled = name.toList ++ ((missingMark needed).toList ++ ';' :: rest) := ⟨_, rfl⟩
  have whole : cs ++ " ".toList ++ name.toList ++ (missingMark needed).toList ++ [';'] ++ rest =
      cs ++ ' ' :: spelled := by simp [text]
  rw [whole] at enough ⊢
  have ends : EndsName ((missingMark needed).toList ++ ';' :: rest) := by
    cases needed with
    | false => exact ⟨'?', ';' :: rest, rfl, Or.inr rfl⟩
    | true => exact ⟨';', rest, rfl, Or.inl rfl⟩
  have named : fieldNameAt spelled = (name.toList, (missingMark needed).toList ++ ';' :: rest) := by
    rw [text, fieldNameAt_isFieldName fieldName ends]
  have read : alternativesAt fuel (cs ++ ' ' :: spelled) = some (ts, ' ' :: spelled) :=
    reads.closed (by simp [Ends]) (by simp) (by omega)
  -- No alternative starts with an asterisk, but one was read from this text.
  have notInclusion (ds : List Char) (same : cs ++ ' ' :: spelled = '*' :: ds) : False := by
    rw [same, alternativesAt_foreign (by decide) (by decide)] at read
    cases read
  rw [memberAt.eq_3 _ _ notInclusion, read]
  simp only [Option.bind_eq_bind, Option.bind_some, named]
  cases needed <;> simp [missingMark]

theorem memberAt_foreign (fuel : Nat) (cs : List Char) : memberAt fuel ('\x7d' :: cs) = none := by
  cases fuel with
  | zero => rfl
  | succ fuel =>
    rw [memberAt.eq_3 _ _ (by simp), alternativesAt_foreign (by decide) (by decide)]
    rfl

theorem readsMembers_nil : ReadsMembers [] [] := by
  intro fuel rest enough
  obtain ⟨fuel, rfl⟩ := Nat.exists_eq_add_one.mpr (Nat.zero_lt_of_lt enough)
  simp [membersAt]

theorem ReadsMember.cons {m : Member} {ms : List Member} {cs ds : List Char}
    (reads : ReadsMember m cs) (later : ReadsMembers ms ds) :
    ReadsMembers (m :: ms) (' ' :: cs ++ ds) := by
  intro fuel rest enough
  obtain ⟨fuel, rfl⟩ := Nat.exists_eq_add_one.mpr (Nat.zero_lt_of_lt enough)
  rw [List.append_assoc, List.cons_append] at enough ⊢
  rw [List.length_cons] at enough
  have read := reads fuel (ds ++ ' ' :: '\x7d' :: rest) (by omega)
  -- No member starts with a brace, so the record does not end before this one.
  have notClosed (after : List Char)
      (same : cs ++ (ds ++ ' ' :: '\x7d' :: rest) = '\x7d' :: after) : False := by
    rw [same, memberAt_foreign] at read
    cases read
  rw [List.length_append] at enough
  rw [membersAt.eq_3 _ _ (by simpa using notClosed), read]
  simp [later fuel rest (by omega)]

theorem ReadsMembers.record {ms : List Member} {cs : List Char} (reads : ReadsMembers ms cs)
    (nullable : Bool) : ReadsAlternative (.record ms nullable)
      ("record \x7b".toList ++ cs ++ " \x7d".toList ++ (nullMark nullable).toList) := by
  intro fuel rest _ enough
  obtain ⟨fuel, rfl⟩ := Nat.exists_eq_add_one.mpr (Nat.zero_lt_of_lt enough)
  obtain ⟨after, marks⟩ : ∃ after, after = (nullMark nullable).toList ++ rest := ⟨_, rfl⟩
  have whole : "record \x7b".toList ++ cs ++ " \x7d".toList ++ (nullMark nullable).toList ++ rest =
      "record".toList ++ ' ' :: '\x7b' :: (cs ++ ' ' :: '\x7d' :: after) := by simp [marks]
  rw [whole] at enough ⊢
  have parts : ∀ c ∈ "record".toList, isIdentifierPart c = true := by
    simp
    decide
  have stops : Stops (' ' :: '\x7b' :: (cs ++ ' ' :: '\x7d' :: after)) := by
    simp [Stops]
    decide
  have read : membersAt fuel (cs ++ ' ' :: '\x7d' :: after) = some (ms, after) := by
    refine reads fuel after ?_
    rw [List.length_append, List.length_cons, List.length_cons] at enough
    omega
  have suffix := suffixed_nullMark (.record ms false) rfl nullable rest
  rw [← marks] at suffix
  rw [alternativeAt.eq_3 _ _ (by simp), dropWhile_of_stops parts stops,
    takeWhile_of_stops parts stops, String.ofList_toList]
  simp only [if_true, read, Option.bind_eq_bind, Option.bind_some, suffix]
  cases nullable <;> rfl

/-! ### Every descriptor -/

/-- The descriptor of a type is read as its alternatives. Apart from a group it is one alternative,
which suffixes can follow. -/
def ReadsType (t : TypeExpr) : Prop :=
  (t.isGroup = false → ReadsAlternative t.inner t.descriptor.toList) ∧
    ReadsAlternatives t.alternatives t.descriptor.toList

theorem nullable_inner (t : TypeExpr) : t.inner.nullable = t.nullable := by
  cases t <;> rfl

theorem ReadsAlternative.readsType {t : TypeExpr} (closed : t.isGroup = false)
    (reads : ReadsAlternative t.inner t.descriptor.toList) : ReadsType t := by
  refine ⟨fun _ => reads, ?_⟩
  rw [TypeExpr.alternatives_of_not_group closed]
  exact reads.alternatives

theorem ReadsType.array {element : TypeExpr} (reads : ReadsType element) (nullable : Bool) :
    ReadsType (.array element nullable) := by
  refine ReadsAlternative.readsType rfl ?_
  by_cases group : element.needsGroup = true
  · have alternative := readsAlternative_array_group reads.2 nullable
    simpa [TypeExpr.descriptor, group, TypeExpr.inner] using alternative
  · -- Neither null nor a union: the suffix follows the one alternative of the element.
    obtain ⟨notNull, notUnion⟩ : element.nullable = false ∧ element.isUnion = false := by
      simpa [TypeExpr.needsGroup] using group
    have closed : element.isGroup = false := by simp [TypeExpr.isGroup, notUnion]
    have alternative := (reads.1 closed).array (by rw [nullable_inner, notNull]) nullable
    rw [TypeExpr.inner, TypeExpr.alternatives_of_not_group closed]
    simpa [TypeExpr.descriptor, group, TypeExpr.grouped] using alternative

theorem ReadsAlternatives.union {members : List TypeExpr}
    (reads : ReadsAlternatives (TypeExpr.listAlternatives members)
      (TypeExpr.unionDescriptor members).toList) (nullable : Bool) :
    ReadsType (.union members nullable) := by
  cases nullable with
  | true =>
    refine ReadsAlternative.readsType rfl ?_
    simpa [TypeExpr.descriptor, TypeExpr.inner] using readsAlternative_union reads
  | false =>
    refine ⟨fun closed => ?_, ?_⟩
    · cases closed
    · simpa [TypeExpr.descriptor, TypeExpr.alternatives] using reads

/-- Nothing or a bar stands between an alternative and what follows the later ones. -/
theorem ends_laterDescriptor (ts : List TypeExpr) (ends : Ends rest) :
    Ends ((TypeExpr.laterDescriptor ts).toList ++ rest) := by
  cases ts with
  | nil => simpa [TypeExpr.laterDescriptor] using ends
  | cons t later => simp [TypeExpr.laterDescriptor, Ends]

theorem ReadsType.append {t : TypeExpr} {rest : List TypeExpr} (reads : ReadsType t)
    (later : ReadsLater (TypeExpr.listAlternatives rest) (TypeExpr.laterDescriptor rest).toList) :
    ReadsAlternatives (TypeExpr.listAlternatives (t :: rest))
      (TypeExpr.unionDescriptor (t :: rest)).toList := by
  have alternatives := reads.2.append later fun _ => ends_laterDescriptor rest
  simpa [TypeExpr.listAlternatives, TypeExpr.unionDescriptor] using alternatives

mutual

theorem readsType : (t : TypeExpr) → t.Printable → ReadsType t
  | .reference name nullable, typeName => by
    refine ReadsAlternative.readsType rfl ?_
    simpa [TypeExpr.descriptor, TypeExpr.inner] using readsAlternative_reference typeName nullable
  | .record members nullable, printable => by
    refine ReadsAlternative.readsType rfl ?_
    have alternative := (readsMembers members printable).record nullable
    simpa [TypeExpr.descriptor, TypeExpr.inner] using alternative
  | .array element nullable, printable => (readsType element printable).array nullable
  | .union members nullable, printable =>
    (readsUnion members printable.1 printable.2).union nullable
  | .scalar kind nullable, _ => by
    refine ReadsAlternative.readsType rfl ?_
    simpa [TypeExpr.descriptor, TypeExpr.inner] using readsAlternative_scalar kind nullable
  | .any nullable, _ => by
    refine ReadsAlternative.readsType rfl ?_
    simpa [TypeExpr.descriptor, TypeExpr.inner] using readsAlternative_any nullable
termination_by structural t => t

theorem readsUnion : (ts : List TypeExpr) → ts ≠ [] → TypeExpr.AllPrintable ts →
    ReadsAlternatives (TypeExpr.listAlternatives ts) (TypeExpr.unionDescriptor ts).toList
  | [], given, _ => absurd rfl given
  | t :: rest, _, printable =>
    (readsType t printable.1).append (readsLater rest printable.2)
termination_by structural ts => ts

theorem readsLater : (ts : List TypeExpr) → TypeExpr.AllPrintable ts →
    ReadsLater (TypeExpr.listAlternatives ts) (TypeExpr.laterDescriptor ts).toList
  | [], _ => fun fuel _ _ _ _ enough read => read fuel enough
  | t :: rest, printable => by
    have alternatives := (readsType t printable.1).append (readsLater rest printable.2)
    simpa [TypeExpr.laterDescriptor, TypeExpr.unionDescriptor] using alternatives.later
termination_by structural ts => ts

theorem readsMembers : (ms : List Member) → Member.AllPrintable ms →
    ReadsMembers (Member.plainList ms) (Member.listDescriptor ms).toList
  | [], _ => readsMembers_nil
  | .field name key type needed description :: rest, ⟨⟨fieldName, printable⟩, later⟩ => by
    have member := ((readsType type printable).2.field fieldName needed).cons
      (readsMembers rest later)
    simpa [Member.listDescriptor, Member.descriptor, Member.plainList, Member.plain] using member
  | .inclusion name :: rest, ⟨typeName, later⟩ => by
    have member := (readsMember_inclusion typeName).cons (readsMembers rest later)
    simpa [Member.listDescriptor, Member.descriptor, Member.plainList, Member.plain] using member
termination_by structural ms => ms

end

/-- A descriptor is read as the alternatives of its type. -/
theorem read_descriptor {t : TypeExpr} (printable : t.Printable) :
    read t.descriptor = some t.alternatives := by
  have reads : alternativesAt (3 * t.descriptor.toList.length + 2) (t.descriptor.toList ++ []) =
      some (t.alternatives, []) :=
    (readsType t printable).2.closed (by simp [Ends]) (by simp) (by simp)
  rw [List.append_nil] at reads
  rw [read, reads]

end Descriptor

/-! ### Unambiguity -/

/-- Types with the same descriptor differ at most in the groups of their unions, and in the keys and
the descriptions of their fields. In particular they have the same outermost form, unless one of
them is a group: no suffix and no bar can be taken to belong to another part of the type. -/
theorem equivalent_of_descriptor_eq {s t : TypeExpr} (left : s.Printable) (right : t.Printable)
    (same : s.descriptor = t.descriptor) :
    s.Equivalent t ∧ (s.isGroup = false → t.isGroup = false → s.Matches t) := by
  have alternatives : s.alternatives = t.alternatives := by
    have read := Descriptor.read_descriptor left
    rw [same, Descriptor.read_descriptor right] at read
    exact (Option.some.inj read).symm
  have equivalent : s.Equivalent t := TypeExpr.equivalent_iff.mpr alternatives
  exact ⟨equivalent, equivalent.matches_of_not_group⟩

/-- A nullable list of optional cats and dogs, or anything but a dog, under an escaped name. -/
def litter : TypeExpr :=
  .record [.field "'a\\ litter" "a litter"
    (.array (.union [.reference "Cat" true, .union [.reference "Dog" false, .any false] false]
      false) true) false (some "Born together")] false

/-- The same with other groups, another key and no description. -/
def regroupedLitter : TypeExpr :=
  .record [.field "'a\\ litter" " a litter "
    (.array (.union [.union [.union [.reference "Cat" true] false, .reference "Dog" false] false,
      .any false] false) true) false none] false

theorem litter_equivalent : litter ≠ regroupedLitter ∧
    litter.Equivalent regroupedLitter ∧ litter.Matches regroupedLitter := by
  have cat : IsTypeName "Cat" := by constructor <;> decide +kernel
  have dog : IsTypeName "Dog" := by constructor <;> decide +kernel
  have name : IsFieldName "'a\\ litter" := ⟨{}, "a litter", by decide +kernel⟩
  have left : litter.Printable := by
    simp [litter, TypeExpr.Printable, TypeExpr.AllPrintable, Member.AllPrintable, Member.Printable,
      cat, dog, name]
  have right : regroupedLitter.Printable := by
    simp [regroupedLitter, TypeExpr.Printable, TypeExpr.AllPrintable, Member.AllPrintable,
      Member.Printable, cat, dog, name]
  have same : litter.descriptor = regroupedLitter.descriptor := by decide +kernel
  have settled := equivalent_of_descriptor_eq left right same
  exact ⟨by decide +kernel, settled.1, settled.2 rfl rfl⟩

end SchemaTypes
