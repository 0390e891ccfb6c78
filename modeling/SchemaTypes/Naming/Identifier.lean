import SchemaTypes.Text.Blank

/-!
# Identifiers

Type names are normalized into identifiers; field names keep the spelling of their property key and
are quoted where the key is no identifier or is a reserved word.
-/
namespace SchemaTypes.Naming

/-- An ASCII letter or an underscore. -/
def isIdentifierStart (c : Char) : Bool :=
  c == '_' || c.isAlpha

/-- An ASCII letter, a digit or an underscore. -/
def isIdentifierPart (c : Char) : Bool :=
  c == '_' || c.isAlphanum

/-- A start character followed by part characters. -/
def isIdentifierChars : List Char → Bool
  | [] => false
  | c :: cs => isIdentifierStart c && cs.all isIdentifierPart

def isIdentifier (s : String) : Bool :=
  isIdentifierChars s.toList

/-- The first run of letters and digits, if the text starts with one, and the later runs. -/
def leadingWord : List Char → List Char × List (List Char)
  | [] => ([], [])
  | c :: cs =>
    match leadingWord cs with
    | ([], later) => if c.isAlphanum then ([c], later) else ([], later)
    | (word, later) => if c.isAlphanum then (c :: word, later) else ([], word :: later)

/-- The maximal runs of ASCII letters and digits. -/
def words (cs : List Char) : List (List Char) :=
  match leadingWord cs with
  | ([], later) => later
  | (word, later) => word :: later

def upperFirst : List Char → List Char
  | [] => []
  | c :: cs => c.toUpper :: cs

def lowerFirst : List Char → List Char
  | [] => []
  | c :: cs => c.toLower :: cs

/-- Several words are run together, each with a capital; a single word keeps its case. -/
def joinWords : List (List Char) → List Char
  | [word] => word
  | several => several.flatMap upperFirst

/-- An underscore before a leading digit. -/
def guardDigit : List Char → List Char
  | [] => []
  | c :: cs => if c.isDigit then '_' :: c :: cs else c :: cs

def normalizeChars (raw : List Char) (capital : Bool) : List Char :=
  let trimmed := Text.trimChars raw
  let spelled :=
    guardDigit (if isIdentifierChars trimmed then trimmed else joinWords (words trimmed))
  if capital then upperFirst spelled else lowerFirst spelled

/-- An identifier for any text, empty if the text has no letter or digit to build one from.
`capital` decides the case of the first letter. -/
def normalize (raw : String) (capital : Bool) : String :=
  String.ofList (normalizeChars raw.toList capital)

/-- The words with a meaning of their own in the emitted language. -/
def keywords : List String :=
  ["abort", "any", "anydata", "as", "boolean", "break", "byte", "check", "checkpanic", "class",
   "client", "const", "continue", "decimal", "distinct", "do", "else", "enum", "error", "fail",
   "false", "final", "float", "foreach", "fork", "from", "function", "future", "handle", "if",
   "import", "in", "int", "is", "isolated", "join", "json", "let", "listener", "lock", "map",
   "match", "never", "new", "null", "object", "on", "panic", "private", "public", "readonly",
   "record", "remote", "resource", "retry", "return", "rollback", "select", "service", "start",
   "stream", "string", "table", "transaction", "trap", "true", "type", "typedesc", "typeof",
   "var", "wait", "where", "while", "worker", "xml"]

/-- The words that a field name has to be quoted for: the keywords and the words added to them. -/
structure ReservedWords where
  added : List String := []
deriving Repr, DecidableEq, Inhabited

def ReservedWords.contains (reserved : ReservedWords) (word : String) : Bool :=
  keywords.contains word || reserved.added.contains word

/-- A backslash before every character that no identifier has. -/
def escapeChar (c : Char) : List Char :=
  if isIdentifierPart c then [c] else ['\\', c]

def fieldNameChars (reserved : ReservedWords) (key : List Char) : List Char :=
  let trimmed := Text.trimChars key
  if isIdentifierChars trimmed then
    if reserved.contains (String.ofList trimmed) then '\'' :: trimmed else trimmed
  else '\'' :: trimmed.flatMap escapeChar

/-- The name of the field for a property key: an identifier stays as it is, a reserved word gets a
quote in front, and any other key gets the quote and its foreign characters escaped. -/
def fieldName (reserved : ReservedWords) (key : String) : String :=
  String.ofList (fieldNameChars reserved key.toList)

end SchemaTypes.Naming
