import SchemaTypes.Text.Quoted
import Mathlib.Tactic.Common

/-!
# String literals

A reader of the emitted module finds the end of a string literal, and the text that the literal
stands for, whatever follows it. So no literal of a document can end early and let its remainder
through as code.
-/
namespace SchemaTypes.Text

/-! ### Reading a literal -/

/-- The character that is meant by a backslash before the given one. -/
def unescaped? : Char → Option Char
  | '"' => some '"'
  | '\\' => some '\\'
  | 'n' => some '\n'
  | 'r' => some '\r'
  | 't' => some '\t'
  | _ => none

/-- What is found in front of a text: how it is spelled, what it stands for, and what follows it. -/
structure Lexeme where
  spelled : List Char
  value : List Char
  rest : List Char
deriving Repr, DecidableEq

/-- The remainder of a literal up to its closing quote, if there is one on the line. -/
def lexInside : List Char → Option Lexeme
  | [] | ['\\'] => none
  | '"' :: cs => some ⟨['"'], [], cs⟩
  | '\\' :: e :: cs => do
    let c ← unescaped? e
    let later ← lexInside cs
    some ⟨'\\' :: e :: later.spelled, c :: later.value, later.rest⟩
  | c :: cs =>
    if c = '\n' ∨ c = '\r' then none
    else do
      let later ← lexInside cs
      some ⟨c :: later.spelled, c :: later.value, later.rest⟩

/-- The literal in front of a text. -/
def lexLiteral : List Char → Option Lexeme
  | '"' :: cs => do
    let later ← lexInside cs
    some { later with spelled := '"' :: later.spelled }
  | _ => none

/-! ### One character -/

theorem lexInside_escape {c e : Char} (short : unescaped? e = some c) (cs : List Char) :
    lexInside ('\\' :: e :: cs) = (lexInside cs).map fun later =>
      ⟨'\\' :: e :: later.spelled, c :: later.value, later.rest⟩ := by
  rw [lexInside, short]
  cases lexInside cs <;> rfl

theorem lexInside_plain {c : Char} (notQuote : c ≠ '"') (notEscape : c ≠ '\\') (notFeed : c ≠ '\n')
    (notReturn : c ≠ '\r') (cs : List Char) :
    lexInside (c :: cs) = (lexInside cs).map fun later =>
      ⟨c :: later.spelled, c :: later.value, later.rest⟩ := by
  rw [lexInside.eq_5 _ _ (by simp [notEscape]) (by simp [notQuote]) (by simp [notEscape]),
    if_neg (not_or_intro notFeed notReturn)]
  cases lexInside cs <;> rfl

/-- The written form of a character is read as the character, and keeps to the line. -/
theorem lexInside_escapeLiteralChar (c : Char) (cs : List Char) :
    lexInside (escapeLiteralChar c ++ cs) = (lexInside cs).map fun later =>
      ⟨escapeLiteralChar c ++ later.spelled, c :: later.value, later.rest⟩ := by
  rw [escapeLiteralChar]
  split
  next quote => exact lexInside_escape (by subst quote; rfl) cs
  next notQuote =>
  split
  next escape => exact lexInside_escape (by subst escape; rfl) cs
  next notEscape =>
  split
  next feed => exact lexInside_escape (by subst feed; rfl) cs
  next notFeed =>
  split
  next carriage => exact lexInside_escape (by subst carriage; rfl) cs
  next notReturn =>
  split
  next tab => exact lexInside_escape (by subst tab; rfl) cs
  next => exact lexInside_plain notQuote notEscape notFeed notReturn cs

theorem lineEnd_not_mem_escapeLiteralChar (c : Char) :
    '\n' ∉ escapeLiteralChar c ∧ '\r' ∉ escapeLiteralChar c := by
  unfold escapeLiteralChar
  split_ifs with _ _ notFeed notReturn
  all_goals simp
  exact ⟨Ne.symm notFeed, Ne.symm notReturn⟩

/-! ### A whole literal -/

theorem lexInside_escaped (cs rest : List Char) :
    lexInside (cs.flatMap escapeLiteralChar ++ '"' :: rest) =
      some ⟨cs.flatMap escapeLiteralChar ++ ['"'], cs, rest⟩ := by
  induction cs with
  | nil => rfl
  | cons c cs ih =>
    rw [List.flatMap_cons, List.append_assoc, lexInside_escapeLiteralChar, ih, Option.map_some,
      List.append_assoc]

/-- No line ends within a literal. -/
theorem lineEnd_not_mem_literal (s : String) :
    '\n' ∉ (literal s).toList ∧ '\r' ∉ (literal s).toList := by
  simp only [literal, String.toList_ofList, literalChars, List.cons_append, List.mem_cons,
    List.mem_append, List.mem_flatMap, List.not_mem_nil, or_false, not_or, not_exists, not_and]
  exact ⟨⟨by decide, fun c _ => (lineEnd_not_mem_escapeLiteralChar c).1, by decide⟩,
    by decide, fun c _ => (lineEnd_not_mem_escapeLiteralChar c).2, by decide⟩

/-- A literal is read back: the reader takes exactly the literal, whatever text stands behind it,
and gets the string that was written. -/
theorem lexLiteral_literal (v t : String) :
    lexLiteral (literal v ++ t).toList = some ⟨(literal v).toList, v.toList, t.toList⟩ ∧
      '\n' ∉ (literal v).toList ∧ '\r' ∉ (literal v).toList := by
  refine ⟨?_, lineEnd_not_mem_literal v⟩
  have spelled : (literal v).toList = '"' :: (v.toList.flatMap escapeLiteralChar ++ ['"']) := by
    rw [literal, String.toList_ofList, literalChars, List.cons_append]
  have text : (literal v ++ t).toList =
      '"' :: (v.toList.flatMap escapeLiteralChar ++ '"' :: t.toList) := by
    rw [String.toList_append, spelled, List.cons_append, List.append_assoc, List.singleton_append]
  rw [text, lexLiteral, lexInside_escaped, spelled]
  rfl

/-- A quote that would end the literal, and a backslash that would escape the quote at its end. -/
example : lexLiteral (literal "a\"; b\\" ++ ", c\"").toList =
    some ⟨"\"a\\\"; b\\\\\"".toList, "a\"; b\\".toList, ", c\"".toList⟩ := by
  decide +kernel

end SchemaTypes.Text
