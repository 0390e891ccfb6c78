import SchemaTypes.Json.Reader
import SchemaTypes.Types.Declaration

/-!
# Manifests

Declaration sets as JSON, so that a pass can be saved and a later one can start from it. Writing has
one form; reading also takes records as arrays of their fields, in the order of writing.

A value whose kind stands in a field of its own is read in two steps: it is taken in whole, and its
fields are read from that copy. Parts of a copy are `held`: everything in it must be readable, and
the number of a variant may stand for its name.
-/
namespace SchemaTypes.Manifest

open Data

/-! ### Writing -/

def scalarName : ScalarKind → String
  | .string => "string"
  | .int => "int"
  | .float => "float"
  | .decimal => "decimal"
  | .boolean => "boolean"

def scalarNames : List String :=
  ["string", "int", "float", "decimal", "boolean"]

/-- A shape with its kind, beside the flag for null. -/
def shaped (kind : String) (value : Json) (nullable : Bool) : Json :=
  .object [("shape", .object [("kind", .text kind), ("value", value)]),
    ("nullable", .bool nullable)]

mutual

def expressionJson : TypeExpr → Json
  | .reference name nullable => shaped "named_reference" (.text name) nullable
  | .record members nullable => shaped "inline_record" (.array (membersJson members)) nullable
  | .array element nullable => shaped "array" (expressionJson element) nullable
  | .union members nullable => shaped "union" (.array (expressionsJson members)) nullable
  | .scalar kind nullable => shaped "scalar" (.text (scalarName kind)) nullable
  | .any nullable =>
    .object [("shape", .object [("kind", .text "any")]), ("nullable", .bool nullable)]
termination_by structural t => t

def expressionsJson : List TypeExpr → List Json
  | [] => []
  | t :: rest => expressionJson t :: expressionsJson rest
termination_by structural ts => ts

def memberJson : Member → Json
  | .field name key type required description =>
    .object [("member", .text "field"), ("name", .text name), ("original_name", .text key),
      ("type_expr", expressionJson type), ("required", .bool required),
      ("description", Json.option description)]
  | .inclusion name => .object [("member", .text "inclusion"), ("name", .text name)]
termination_by structural m => m

def membersJson : List Member → List Json
  | [] => []
  | m :: rest => memberJson m :: membersJson rest
termination_by structural ms => ms

end

def declarationJson : Declaration → Json
  | .record name members description =>
    .object [("kind", .text "record"), ("name", .text name),
      ("members", .array (membersJson members)), ("description", Json.option description)]
  | .union name members description =>
    .object [("kind", .text "union_alias"), ("name", .text name),
      ("members", .array (expressionsJson members)), ("description", Json.option description)]
  | .array name element nullable description =>
    .object [("kind", .text "array_alias"), ("name", .text name),
      ("element", expressionJson element), ("nullable", .bool nullable),
      ("description", Json.option description)]
  | .scalar name kind nullable description =>
    .object [("kind", .text "scalar_alias"), ("name", .text name),
      ("scalar", .text (scalarName kind)), ("nullable", .bool nullable),
      ("description", Json.option description)]
  | .any name nullable description =>
    .object [("kind", .text "any_alias"), ("name", .text name), ("nullable", .bool nullable),
      ("description", Json.option description)]

def enumMemberJson (m : EnumMember) : Json :=
  .object [("identifier", .text m.identifier), ("value", .text m.value)]

def enumJson (e : EnumDeclaration) : Json :=
  .object [("name", .text e.name), ("members", .array (e.members.map enumMemberJson)),
    ("description", Json.option e.description)]

def setJson (set : DeclarationSet) : Json :=
  .object [("declarations", .array (set.declarations.map declarationJson)),
    ("enums", .array (set.enums.map enumJson)),
    ("referenced", Json.texts set.referenced.toList)]

/-! ### Reading -/

open Json (Tree)

def textOf : Tree → Option String
  | .text s => some s
  | _ => none

def flagOf : Tree → Option Bool
  | .bool b => some b
  | _ => none

def optionalTextOf : Tree → Option (Option String)
  | .null => some none
  | .text s => some (some s)
  | _ => none

def itemsOf : Tree → Option (List Tree)
  | .array items => some items
  | _ => none

/-- The fields of a record that have one of the names, each at most once. -/
def fieldsOf (names : List String) : Tree → Option (List (String × Tree))
  | .object entries =>
    let known := entries.filter fun e => names.contains e.1
    if (known.map Prod.fst).Nodup then some known else none
  | .array items => if items.length ≤ names.length then some (names.zip items) else none
  | _ => none

def required {α : Type} (name : String) (f : Tree → Option α) (fields : List (String × Tree)) :
    Option α := do
  f (← fields.lookup name)

def orElse {α : Type} (name : String) (f : Tree → Option α) (default : α)
    (fields : List (String × Tree)) : Option α :=
  match fields.lookup name with
  | some tree => f tree
  | none => some default

/-- The place of a variant among the names, from its name; in a held copy also from its place. -/
def variantOf (names : List String) (held : Bool) : Tree → Option Nat
  | .text s => names.findIdx? (· == s)
  | .number (.int n) => if held && 0 ≤ n && n < names.length then some n.toNat else none
  | _ => none

/-- Nothing: null, or in a held copy an object without entries. -/
def isUnit (held : Bool) : Tree → Bool
  | .null => true
  | .object [] => held
  | _ => false

/-- A variant without content, written as its name or as an object with the name as its key. -/
def unitVariantOf (names : List String) (held : Bool) : Tree → Option Nat
  | .text s => names.findIdx? (· == s)
  | .object [(key, content)] => if isUnit held content then names.findIdx? (· == key) else none
  | _ => none

def scalarOf (held : Bool) (tree : Tree) : Option ScalarKind := do
  [ScalarKind.string, .int, .float, .decimal, .boolean][← unitVariantOf scalarNames held tree]?

/-- The kind of a value and the rest of it, where the kind stands in the field `tag`. The rest is a
held copy. -/
def taggedOf (tag : String) (names : List String) (held : Bool) (tree : Tree) :
    Option (Nat × Tree) :=
  if held || tree.isReadable then
    match tree with
    | .object entries =>
      match entries.filter fun e => e.1 == tag with
      | [(_, kind)] => do
        pure (← variantOf names held kind, .object (entries.filter fun e => e.1 != tag))
      | _ => none
    | .array (kind :: rest) => do pure (← variantOf names held kind, .array rest)
    | _ => none
  else none

def shapeNames : List String :=
  ["named_reference", "inline_record", "array", "union", "scalar", "any"]

/-- The kind of a shape and its content. In a list the kind stands like that of a declaration, in
an object it is a variant without content. Content that comes before the kind is a held copy. -/
def shapeOf (held : Bool) : Tree → Option (Nat × Option Tree × Bool)
  | .object entries => do
    let given := entries.filter fun e => e.1 == "kind" || e.1 == "value"
    let (kind, value, heldValue) ← match given with
      | [("kind", kind)] => some (kind, none, held)
      | [("kind", kind), ("value", value)] => some (kind, some value, held)
      | [("value", value), ("kind", kind)] =>
        if held || value.isReadable then some (kind, some value, true) else none
      | _ => none
    pure (← unitVariantOf shapeNames held kind, value, heldValue)
  | .array [kind, value] => do pure (← variantOf shapeNames held kind, some value, held)
  | _ => none

mutual

def expressionAt (held : Bool) : (fuel : Nat) → Tree → Option TypeExpr
  | 0, _ => none
  | fuel + 1, tree => do
    let fields ← fieldsOf ["shape", "nullable"] tree
    let nullable ← orElse "nullable" flagOf false fields
    let (kind, value, heldValue) ← shapeOf held (← fields.lookup "shape")
    match shapeNames[kind]?, value with
    | some "named_reference", some value => do pure (.reference (← textOf value) nullable)
    | some "inline_record", some value => do
      pure (.record (← (← itemsOf value).mapM (memberAt heldValue fuel)) nullable)
    | some "array", some value => do pure (.array (← expressionAt heldValue fuel value) nullable)
    | some "union", some value => do
      pure (.union (← (← itemsOf value).mapM (expressionAt heldValue fuel)) nullable)
    | some "scalar", some value => do pure (.scalar (← scalarOf heldValue value) nullable)
    | some "any", some .null => some (.any nullable)
    | some "any", none => some (.any nullable)
    | _, _ => none

def memberAt (held : Bool) : (fuel : Nat) → Tree → Option Member
  | 0, _ => none
  | fuel + 1, tree => do
    match ← taggedOf "member" ["field", "inclusion"] held tree with
    | (0, rest) => do
      let fields ← fieldsOf ["name", "original_name", "type_expr", "required", "description"] rest
      pure (.field (← required "name" textOf fields) (← required "original_name" textOf fields)
        (← required "type_expr" (expressionAt true fuel) fields)
        (← required "required" flagOf fields)
        (← orElse "description" optionalTextOf none fields))
    | (_, rest) => do
      pure (.inclusion (← required "name" textOf (← fieldsOf ["name"] rest)))

end

/-- An expression has at most as many expressions and members one inside the other as its text has
levels. -/
def expressionOf (held : Bool) (tree : Tree) : Option TypeExpr :=
  expressionAt held (Json.nestingLimit + 1) tree

def memberOf (held : Bool) (tree : Tree) : Option Member :=
  memberAt held (Json.nestingLimit + 1) tree

def declarationOf (tree : Tree) : Option Declaration := do
  let kinds := ["record", "union_alias", "array_alias", "scalar_alias", "any_alias"]
  let (kind, rest) ← taggedOf "kind" kinds false tree
  match kinds[kind]? with
  | some "record" => do
    let fields ← fieldsOf ["name", "members", "description"] rest
    pure (.record (← required "name" textOf fields)
      (← required "members" (fun t => do (← itemsOf t).mapM (memberOf true)) fields)
      (← orElse "description" optionalTextOf none fields))
  | some "union_alias" => do
    let fields ← fieldsOf ["name", "members", "description"] rest
    pure (.union (← required "name" textOf fields)
      (← required "members" (fun t => do (← itemsOf t).mapM (expressionOf true)) fields)
      (← orElse "description" optionalTextOf none fields))
  | some "array_alias" => do
    let fields ← fieldsOf ["name", "element", "nullable", "description"] rest
    pure (.array (← required "name" textOf fields)
      (← required "element" (expressionOf true) fields)
      (← orElse "nullable" flagOf false fields)
      (← orElse "description" optionalTextOf none fields))
  | some "scalar_alias" => do
    let fields ← fieldsOf ["name", "scalar", "nullable", "description"] rest
    pure (.scalar (← required "name" textOf fields)
      (← required "scalar" (scalarOf true) fields)
      (← orElse "nullable" flagOf false fields)
      (← orElse "description" optionalTextOf none fields))
  | some "any_alias" => do
    let fields ← fieldsOf ["name", "nullable", "description"] rest
    pure (.any (← required "name" textOf fields)
      (← required "nullable" flagOf fields)
      (← orElse "description" optionalTextOf none fields))
  | _ => none

def enumMemberOf (tree : Tree) : Option EnumMember := do
  let fields ← fieldsOf ["identifier", "value"] tree
  pure ⟨← required "identifier" textOf fields, ← required "value" textOf fields⟩

def enumOf (tree : Tree) : Option EnumDeclaration := do
  let fields ← fieldsOf ["name", "members", "description"] tree
  pure ⟨← required "name" textOf fields,
    ← required "members" (fun t => do (← itemsOf t).mapM enumMemberOf) fields,
    ← orElse "description" optionalTextOf none fields⟩

def enumsOf (tree : Tree) : Option (List EnumDeclaration) := do
  (← itemsOf tree).mapM enumOf

def setOf (tree : Tree) : Option DeclarationSet := do
  let fields ← fieldsOf ["declarations", "enums", "referenced"] tree
  pure ⟨← required "declarations" (fun t => do (← itemsOf t).mapM declarationOf) fields,
    ← required "enums" enumsOf fields,
    ← orElse "referenced" (fun t => do pure (.ofList (← (← itemsOf t).mapM textOf))) .empty fields⟩

/-- The declaration set that a JSON text holds. -/
def read (s : String) : Option DeclarationSet := do
  setOf (← Json.read s)

end SchemaTypes.Manifest
