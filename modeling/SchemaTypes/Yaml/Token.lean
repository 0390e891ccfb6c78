/-!
# YAML tokens

The parts that a YAML text is made of. Where the layout alone shows that a collection begins or
ends, that is a token too.
-/
namespace SchemaTypes.Yaml

/-- The ways to write a scalar. -/
inductive Style where
  | plain
  | quoted
  | literal
  | folded
deriving Repr, DecidableEq, Inhabited

/-- The text of a tag by its characters. Its escapes stand for bytes; `none` is what they give where
the bytes are of the form of a character but make none. -/
structure Tag where
  chars : List (Option Char)
deriving Repr, DecidableEq, Inhabited

namespace Tag

def ofString (s : String) : Tag :=
  ⟨s.toList.map some⟩

/-- A tag as it is read, which ends before a zero. -/
def upToZero (cs : List (Option Char)) : Tag :=
  ⟨cs.takeWhile (· ≠ some (Char.ofNat 0))⟩

/-- A tag with another one in front. -/
def after (start tag : Tag) : Tag :=
  ⟨start.chars ++ tag.chars⟩

/-- A tag of the core, such as `!!str`. -/
def core (name : String) : Tag :=
  .ofString ("tag:yaml.org,2002:" ++ name)

/-- Is the tag one that only this document knows? -/
def isLocal (tag : Tag) : Bool :=
  tag.chars.head? == some (some '!')

/-- Does the tag give its node a type of its own? A local one does, if it is a proper text. -/
def isCustom (tag : Tag) : Bool :=
  tag.isLocal && tag.chars.all Option.isSome

end Tag

inductive Token where
  | versionDirective
  | tagDirective (handle : String) (start : Tag)
  | documentStart
  | documentEnd
  /-- An indented list or table begins. -/
  | blockList
  | blockTable
  | blockEnd
  | openList
  | closeList
  | openTable
  | closeTable
  | comma
  | item
  | key
  | value
  | alias (name : String)
  | anchor (name : String)
  | tag (handle : String) (suffix : Tag)
  | scalar (style : Style) (text : String)
deriving Repr, DecidableEq, Inhabited

end SchemaTypes.Yaml
