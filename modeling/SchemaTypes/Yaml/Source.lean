import SchemaTypes.Source.Node
import SchemaTypes.Yaml.Scalar

/-!
# YAML trees as sources

The readings of YAML scalars, and the nodes that aliases stand for. An alias may be used before the
node that it stands for is complete.
-/
namespace SchemaTypes.Yaml

open Source

namespace Scalar

/-- The readings of forms other than texts are for plain scalars, and for literal ones with the
tag of the form. -/
def hasForm (form : String) (tag : Option Tag) (style : Style) : Bool :=
  style = .plain || (style = .literal && tag = some (.core form))

/-- A plain scalar that is empty or null is no value. With a tag only the tag of null counts, and
then the scalar has to be null. -/
def presence (tag : Option Tag) (style : Style) (text : String) : Presence :=
  if style ≠ .plain then .present
  else
    match tag with
    | none => if text.isEmpty || isNull text then .absent else .present
    | some tag =>
      if tag ≠ .core "null" then .present
      else if isNull text then .absent
      else .undecided

def literal? (tag : Option Tag) (style : Style) (text : String) : Option Json :=
  match tag with
  | some tag => taggedLiteral? tag style text
  | none => untaggedLiteral? style text

end Scalar

/-- The readings of a scalar. -/
def leafOf (tag : Option Tag) (style : Style) (text : String) : Leaf where
  text := some text
  flag := if Scalar.hasForm "bool" tag style then truth? text else none
  count := if Scalar.hasForm "int" tag style then word? text else none
  presence := Scalar.presence tag style text
  isBlank := style = .plain && text.isEmpty
  literal := Scalar.literal? tag style text

/-- The readings of an empty text. -/
def emptyLeaf : Leaf :=
  ⟨none, none, none, .absent, true, some .null⟩

/-- Has a collection a type of its own? -/
def Properties.isCustom (p : Properties) : Bool :=
  p.tag.any Tag.isCustom

/-! ### Anchors -/

/-- The slot of each anchor name. -/
abbrev Anchors := List (String × Nat)

/-- Gives an anchor the slot that is numbered by the names so far. A name that is there already gets
a new slot, without counting twice. -/
def Anchors.add (anchors : Anchors) (name : String) : Anchors :=
  (name, anchors.length) :: anchors.filter (·.1 ≠ name)

/-- The anchors after a node begins, and the slot that the node is for. -/
def Properties.begin (p : Properties) (anchors : Anchors) : Anchors × Option Nat :=
  match p.anchor with
  | some name => (anchors.add name, some anchors.length)
  | none => (anchors, none)

/-- What is found in a part of a document: the part itself, the slots in it with the last one that
begins in front, the number of its beginnings, ends, scalars and aliases, and the anchors after
it. -/
structure Linked (α : Type) where
  part : α
  slots : List (Nat × Node)
  size : Nat
  anchors : Anchors

/-- A collection or scalar with the slot that it is for. -/
def Linked.close (l : Linked Node) (slot : Option Nat) (size : Nat) : Linked Node :=
  { l with slots := l.slots ++ (slot.map (·, l.part)).toList, size := l.size + size }

mutual

/-- A node and the nodes that aliases stand for. An alias stands for the slot that its name has
where the alias is. -/
def link (anchors : Anchors) : Tree → Option (Linked Node)
  | .scalar p style text =>
    let (anchors, slot) := p.begin anchors
    some ((Linked.mk (.leaf (leafOf p.tag style text)) [] 0 anchors).close slot 1)
  | .alias name => do
    let slot ← anchors.lookup name
    pure ⟨.alias slot, [], 1, anchors⟩
  | .list p items => do
    let (anchors, slot) := p.begin anchors
    let l ← linkItems anchors items
    pure ({ l with part := .list p.isCustom l.part : Linked Node }.close slot 2)
  | .table p entries => do
    let (anchors, slot) := p.begin anchors
    let l ← linkEntries anchors entries
    pure ({ l with part := .table p.isCustom l.part : Linked Node }.close slot 2)
termination_by structural tree => tree

def linkItems (anchors : Anchors) : List Tree → Option (Linked (List Node))
  | [] => some ⟨[], [], 0, anchors⟩
  | item :: rest => do
    let first ← link anchors item
    let rest ← linkItems first.anchors rest
    pure ⟨first.part :: rest.part, rest.slots ++ first.slots, first.size + rest.size, rest.anchors⟩
termination_by structural items => items

def linkEntries (anchors : Anchors) : List (Tree × Tree) → Option (Linked (List (Node × Node)))
  | [] => some ⟨[], [], 0, anchors⟩
  | (key, value) :: rest => do
    let key ← link anchors key
    let value ← link key.anchors value
    let rest ← linkEntries value.anchors rest
    pure ⟨(key.part, value.part) :: rest.part, rest.slots ++ value.slots ++ key.slots,
      key.size + value.size + rest.size, rest.anchors⟩
termination_by structural entries => entries

end

/-- How many aliases may be followed for each part of a document. -/
def aliasFactor : Nat := 100

/-- The tree of a text as a source. -/
def sourceOf : Option Tree → Option Root
  | none => some ⟨.leaf emptyLeaf, [], aliasFactor, false⟩
  | some tree => do
    let l ← link [] tree
    pure ⟨l.part, l.slots, aliasFactor * l.size, false⟩

/-- A YAML text as a source. -/
def read (s : String) : Option Root := do
  sourceOf (← Tree.ofText? s)

end SchemaTypes.Yaml
