import SchemaTypes.Yaml.Lexer

/-!
# YAML trees

A YAML document as it was written: the parts of its nodes with their styles, tags and anchors. A
node that is left out is an empty plain scalar.
-/
namespace SchemaTypes.Yaml

/-- What may stand before a node. -/
structure Properties where
  anchor : Option String := none
  tag : Option Tag := none
deriving Repr, DecidableEq, Inhabited

/-- A node as it was written; what an alias stands for is settled later. -/
inductive Tree where
  | scalar (properties : Properties) (style : Style) (text : String)
  | alias (name : String)
  | list (properties : Properties) (items : List Tree)
  | table (properties : Properties) (entries : List (Tree × Tree))
deriving Inhabited

namespace Tree

/-- A node that is left out. -/
def missing : Tree := .scalar {} .plain ""

/-- Where a node stands. As a part of an indented table, a list needs no indentation. -/
inductive Place where
  | flow
  | block
  | tablePart
deriving Repr, DecidableEq, Inhabited

/-- The anchor and the tag come in either order. -/
def properties : List Token → Properties × List Token
  | .anchor name :: .tag _ tag :: rest => (⟨name, tag⟩, rest)
  | .tag _ tag :: .anchor name :: rest => (⟨name, tag⟩, rest)
  | .anchor name :: rest => (⟨name, none⟩, rest)
  | .tag _ tag :: rest => (⟨none, tag⟩, rest)
  | rest => ({}, rest)

/-- A node with properties only. -/
def bare (properties : Properties) (rest : List Token) : Option (Tree × List Token) :=
  if properties = {} then none else some (.scalar properties .plain "", rest)

/-- Before these tokens, the item of an indented list is left out. -/
def endsItem (t : Token) : Bool :=
  t = .item || t = .blockEnd

/-- Before these tokens, the key or the value of an indented table is left out. -/
def endsTablePart (t : Token) : Bool :=
  t = .key || t = .value || t = .blockEnd

/-- Before these tokens, the item of a list without indentation is left out. -/
def endsLooseItem (t : Token) : Bool :=
  t = .item || endsTablePart t

mutual

/-- The node at the front of the tokens. -/
def node (place : Place) : (fuel : Nat) → List Token → Option (Tree × List Token)
  | 0, _ => none
  | _ + 1, .alias name :: rest => some (.alias name, rest)
  | fuel + 1, tokens =>
    let (properties, rest) := properties tokens
    match place, rest with
    | .tablePart, .item :: _ => do
      let (items, rest) ← looseItems fuel rest
      pure (.list properties items, rest)
    | _, .scalar style text :: rest => some (.scalar properties style text, rest)
    | _, .openList :: rest => do
      let (items, rest) ← flowItems true fuel rest
      pure (.list properties items, rest)
    | _, .openTable :: rest => do
      let (entries, rest) ← flowEntries true fuel rest
      pure (.table properties entries, rest)
    | .flow, rest => bare properties rest
    | _, .blockList :: rest => do
      let (items, rest) ← blockItems fuel rest
      pure (.list properties items, rest)
    | _, .blockTable :: rest => do
      let (entries, rest) ← blockEntries fuel rest
      pure (.table properties entries, rest)
    | _, rest => bare properties rest

/-- The items of an indented list. -/
def blockItems : (fuel : Nat) → List Token → Option (List Tree × List Token)
  | 0, _ => none
  | fuel + 1, .item :: rest => do
    let (item, rest) ←
      if rest.head?.any endsItem then some (missing, rest) else node .block fuel rest
    let (items, rest) ← blockItems fuel rest
    pure (item :: items, rest)
  | _ + 1, .blockEnd :: rest => some ([], rest)
  | _ + 1, _ => none

/-- The items of a list without indentation, which ends where there is no other item. -/
def looseItems : (fuel : Nat) → List Token → Option (List Tree × List Token)
  | 0, _ => none
  | fuel + 1, .item :: rest => do
    let (item, rest) ←
      if rest.head?.any endsLooseItem then some (missing, rest) else node .block fuel rest
    let (items, rest) ← looseItems fuel rest
    pure (item :: items, rest)
  | _ + 1, rest => some ([], rest)

/-- The entries of an indented table. -/
def blockEntries : (fuel : Nat) → List Token → Option (List (Tree × Tree) × List Token)
  | 0, _ => none
  | _ + 1, .blockEnd :: rest => some ([], rest)
  | fuel + 1, .key :: rest => do
    let (key, rest) ←
      if rest.head?.any endsTablePart then some (missing, rest)
      else node .tablePart fuel rest
    let (value, rest) ← match rest with
      | .value :: rest =>
        if rest.head?.any endsTablePart then some (missing, rest)
        else node .tablePart fuel rest
      | rest => some (missing, rest)
    let (entries, rest) ← blockEntries fuel rest
    pure ((key, value) :: entries, rest)
  | _ + 1, _ => none

/-- The items of a list in brackets. One that is marked as a key is a table of its own; the
indicator after a key that is left out belongs to the key. -/
def flowItems (first : Bool) : (fuel : Nat) → List Token → Option (List Tree × List Token)
  | 0, _ => none
  | _ + 1, .closeList :: rest => some ([], rest)
  | fuel + 1, tokens => do
    let tokens ← match first, tokens with
      | true, tokens => some tokens
      | false, .comma :: rest => some rest
      | false, _ => none
    match tokens with
    | .closeList :: rest => some ([], rest)
    | .key :: rest => do
      let (key, rest) ← match rest with
        | .value :: rest | .comma :: rest | .closeList :: rest => some (missing, rest)
        | rest => node .flow fuel rest
      let (value, rest) ← match rest with
        | .value :: .comma :: rest => some (missing, .comma :: rest)
        | .value :: .closeList :: rest => some (missing, .closeList :: rest)
        | .value :: rest => node .flow fuel rest
        | rest => some (missing, rest)
      let (items, rest) ← flowItems false fuel rest
      pure (.table {} [(key, value)] :: items, rest)
    | tokens => do
      let (item, rest) ← node .flow fuel tokens
      let (items, rest) ← flowItems false fuel rest
      pure (item :: items, rest)

/-- The entries of a table in brackets. What is not marked as a key is one without a value. -/
def flowEntries (first : Bool) :
    (fuel : Nat) → List Token → Option (List (Tree × Tree) × List Token)
  | 0, _ => none
  | _ + 1, .closeTable :: rest => some ([], rest)
  | fuel + 1, tokens => do
    let tokens ← match first, tokens with
      | true, tokens => some tokens
      | false, .comma :: rest => some rest
      | false, _ => none
    match tokens with
    | .closeTable :: rest => some ([], rest)
    | .key :: rest => do
      let (key, rest) ← match rest with
        | .value :: _ | .comma :: _ | .closeTable :: _ => some (missing, rest)
        | rest => node .flow fuel rest
      let (value, rest) ← match rest with
        | .value :: .comma :: rest => some (missing, .comma :: rest)
        | .value :: .closeTable :: rest => some (missing, .closeTable :: rest)
        | .value :: rest => node .flow fuel rest
        | rest => some (missing, rest)
      let (entries, rest) ← flowEntries false fuel rest
      pure ((key, value) :: entries, rest)
    | tokens => do
      let (key, rest) ← node .flow fuel tokens
      let (entries, rest) ← flowEntries false fuel rest
      pure ((key, missing) :: entries, rest)

end

/-! ### Documents -/

/-- What tag handles stand for. -/
abbrev Handles := List (String × Tag)

/-- The tag handles that need no directive. -/
def defaultHandles : Handles :=
  [("!", .ofString "!"), ("!!", .core "")]

/-- A tag with the start that its handle stands for. -/
def fullTag? (handles : Handles) : Token → Option Token
  | .tag "" suffix => some (.tag "" suffix)
  | .tag handle suffix => do pure (.tag "" (.after (← handles.lookup handle) suffix))
  | t => some t

/-- The directives at the front of the tokens, each for itself at most once: the handles of tags,
and whether there is a directive at all. -/
def directives (handles : Handles) (version : Bool) :
    List Token → Option (Handles × Bool × List Token)
  | .versionDirective :: rest => if version then none else directives handles true rest
  | .tagDirective handle start :: rest =>
    if (handles.lookup handle).isSome then none
    else directives ((handle, start) :: handles) version rest
  | rest => some (handles, version || !handles.isEmpty, rest)

/-- Does a document without content end here? -/
def endsContent : Token → Bool
  | .versionDirective | .tagDirective .. | .documentStart | .documentEnd => true
  | _ => false

/-- The content of a document, and what follows it. -/
def content (explicit : Bool) (tokens : List Token) : Option (Tree × List Token) :=
  if explicit && tokens.head?.all endsContent then some (missing, tokens)
  else node .block (2 * tokens.length + 2) tokens

/-- The tree of the one document in the tokens; there is none if there are no tokens. Directives
need a marker after them. -/
def ofTokens? (tokens : List Token) : Option (Option Tree) := do
  if tokens.isEmpty then pure none
  else
    let (handles, directed, rest) ← directives [] false tokens
    let rest ← rest.mapM (fullTag? (handles ++ defaultHandles))
    let (tree, rest) ← match rest with
      | .documentStart :: rest => content true rest
      | rest => if directed then none else content false rest
    if rest.all (· = .documentEnd) then pure (some tree) else none

/-- The tree of the one document in a text. -/
def ofText? (s : String) : Option (Option Tree) := do
  ofTokens? (← Token.ofText? s)

end Tree
end SchemaTypes.Yaml
