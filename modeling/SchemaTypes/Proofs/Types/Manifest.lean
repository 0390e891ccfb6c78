import SchemaTypes.Types.Manifest
import SchemaTypes.Proofs.Json.Reading
import Mathlib.Data.List.Sort

/-!
# Manifests that are read back

A declaration set is read back from its written form as it was. Every part of it is an object with
all the fields that its reader asks for, so the reader finds each of them, and what is left to read
nests less deep than the object did.
-/
namespace SchemaTypes

/-- A set of names is what its names make up again. -/
theorem Data.NameSet.ofList_toList (set : NameSet) : NameSet.ofList set.toList = set := by
  have irreflexive : Std.Irrefl (α := String) (· < ·) := ⟨String.lt_irrefl⟩
  have same : (NameSet.ofList set.toList).toList = set.toList :=
    List.Pairwise.eq_of_mem_iff (NameSet.ofList set.toList).sorted set.sorted
      fun _ => NameSet.mem_ofList
  generalize NameSet.ofList set.toList = made at same
  obtain ⟨names, _⟩ := made
  obtain ⟨_, _⟩ := set
  cases same
  rfl

namespace Manifest

open Data
open Json (Tree)

/-! ### Fields of an object -/

section Fields

variable {α : Type} {name key : String} {f : Tree → Option α} {default : α} {tree : Tree}
  {fields : List (String × Tree)}

/-- An object with the expected keys has all its entries read. -/
theorem fieldsOf_object {names : List String} (keys : fields.map Prod.fst = names)
    (distinct : names.Nodup) : fieldsOf names (.object fields) = some fields := by
  have known : (fields.filter fun e => names.contains e.1) = fields := by
    refine List.filter_eq_self.mpr fun e member => ?_
    rw [List.contains_iff_mem, ← keys]
    exact List.mem_map_of_mem member
  simp only [fieldsOf, known, keys, distinct, if_true]

theorem some_bind {α β : Type} (a : α) (f : α → Option β) : (some a >>= f) = f a :=
  rfl

theorem lookup_later (other : name ≠ key) :
    ((key, tree) :: fields).lookup name = fields.lookup name := by
  rw [List.lookup_cons, beq_eq_false_iff_ne.mpr other]

@[simp] theorem required_here : required name f ((name, tree) :: fields) = f tree := by
  rw [required, List.lookup_cons_self, some_bind]

@[simp] theorem required_later (other : name ≠ key) :
    required name f ((key, tree) :: fields) = required name f fields := by
  rw [required, required, lookup_later other]

@[simp] theorem orElse_here : orElse name f default ((name, tree) :: fields) = f tree := by
  rw [orElse, List.lookup_cons_self]

@[simp] theorem orElse_later (other : name ≠ key) :
    orElse name f default ((key, tree) :: fields) = orElse name f default fields := by
  rw [orElse, orElse, lookup_later other]

@[simp] theorem optionalTextOf_option (description : Option String) :
    optionalTextOf (.ofJson (Json.option description)) = some description := by
  cases description <;> rfl

end Fields

/-! ### Expressions -/

variable {held : Bool} {fuel : Nat}

/-- A shape with content is read as its kind and that content. -/
theorem shapeOf_kind_value {kind : String} {place : Nat} (tree : Tree)
    (known : shapeNames.findIdx? (· == kind) = some place) :
    shapeOf held (.object [("kind", .text kind), ("value", tree)]) =
      some (place, some tree, held) := by
  simp [shapeOf, unitVariantOf, known]

theorem shapeOf_kind {kind : String} {place : Nat}
    (known : shapeNames.findIdx? (· == kind) = some place) :
    shapeOf held (.object [("kind", .text kind)]) = some (place, none, held) := by
  simp [shapeOf, unitVariantOf, known]

theorem flag_shaped (shape : Tree) (nullable : Bool) :
    orElse "nullable" flagOf false [("shape", shape), ("nullable", .bool nullable)] =
      some nullable := by
  rw [orElse_later (by simp), orElse_here, flagOf]

/-- The flag and the shape of an expression are found, whatever is then made of them. -/
theorem bind_shaped {β : Type} {kind : String} {place : Nat} (value : Json) (nullable : Bool)
    (rest : Bool → Nat × Option Tree × Bool → Option β)
    (known : shapeNames.findIdx? (· == kind) = some place) :
    (do
      let fields ← fieldsOf ["shape", "nullable"] (.ofJson (shaped kind value nullable))
      let flag ← orElse "nullable" flagOf false fields
      let shape ← shapeOf held (← fields.lookup "shape")
      rest flag shape) = rest nullable (place, some (.ofJson value), held) := by
  have written : Tree.ofJson (shaped kind value nullable) =
      .object [("shape", .object [("kind", .text kind), ("value", .ofJson value)]),
        ("nullable", .bool nullable)] := rfl
  rw [written, fieldsOf_object (by rfl) (by simp), some_bind, flag_shaped, some_bind,
    List.lookup_cons_self, some_bind, shapeOf_kind_value _ known, some_bind]

theorem expressionAt_reference (name : String) (nullable : Bool) :
    expressionAt held (fuel + 1) (.ofJson (expressionJson (.reference name nullable))) =
      some (.reference name nullable) := by
  have known : shapeNames.findIdx? (· == "named_reference") = some 0 := by decide +kernel
  rw [expressionAt, expressionJson, bind_shaped _ _ _ known]
  rfl

theorem expressionAt_record {members : List Member} (nullable : Bool)
    (read : (Tree.ofItems (membersJson members)).mapM (memberAt held fuel) = some members) :
    expressionAt held (fuel + 1) (.ofJson (expressionJson (.record members nullable))) =
      some (.record members nullable) := by
  have known : shapeNames.findIdx? (· == "inline_record") = some 1 := by decide +kernel
  rw [expressionAt, expressionJson, bind_shaped _ _ _ known]
  simp [shapeNames, Tree.ofJson, itemsOf, read]

theorem expressionAt_array {element : TypeExpr} (nullable : Bool)
    (read : expressionAt held fuel (.ofJson (expressionJson element)) = some element) :
    expressionAt held (fuel + 1) (.ofJson (expressionJson (.array element nullable))) =
      some (.array element nullable) := by
  have known : shapeNames.findIdx? (· == "array") = some 2 := by decide +kernel
  rw [expressionAt, expressionJson, bind_shaped _ _ _ known]
  simp [shapeNames, read]

theorem expressionAt_union {members : List TypeExpr} (nullable : Bool)
    (read : (Tree.ofItems (expressionsJson members)).mapM (expressionAt held fuel) =
      some members) :
    expressionAt held (fuel + 1) (.ofJson (expressionJson (.union members nullable))) =
      some (.union members nullable) := by
  have known : shapeNames.findIdx? (· == "union") = some 3 := by decide +kernel
  rw [expressionAt, expressionJson, bind_shaped _ _ _ known]
  simp [shapeNames, Tree.ofJson, itemsOf, read]

@[simp] theorem scalarOf_scalarName (kind : ScalarKind) :
    scalarOf held (.text (scalarName kind)) = some kind := by
  cases kind <;> rfl

theorem expressionAt_scalar (kind : ScalarKind) (nullable : Bool) :
    expressionAt held (fuel + 1) (.ofJson (expressionJson (.scalar kind nullable))) =
      some (.scalar kind nullable) := by
  have known : shapeNames.findIdx? (· == "scalar") = some 4 := by decide +kernel
  rw [expressionAt, expressionJson, bind_shaped _ _ _ known]
  simp [shapeNames, Tree.ofJson]

/-- The one shape without content is read from its kind alone. -/
theorem expressionAt_any (nullable : Bool) :
    expressionAt held (fuel + 1) (.ofJson (expressionJson (.any nullable))) =
      some (.any nullable) := by
  have known : shapeNames.findIdx? (· == "any") = some 5 := by decide +kernel
  have written : Tree.ofJson (expressionJson (.any nullable)) =
      .object [("shape", .object [("kind", .text "any")]), ("nullable", .bool nullable)] := rfl
  rw [expressionAt, written, fieldsOf_object (by rfl) (by simp), some_bind, flag_shaped, some_bind,
    List.lookup_cons_self, some_bind, shapeOf_kind known, some_bind]
  rfl

/-! ### Members -/

/-- The kind of a value is found in front of its fields, which are left to read. -/
theorem taggedOf_object {tag kind : String} {names : List String} {place : Nat}
    {fields : List (String × Json)} (known : names.findIdx? (· == kind) = some place)
    (own : tag ∉ fields.map Prod.fst) :
    taggedOf tag names held (.ofJson (.object ((tag, .text kind) :: fields))) =
      some (place, .ofJson (.object fields)) := by
  have readable := Tree.isReadable_ofJson (.object ((tag, .text kind) :: fields))
  have others : ∀ e ∈ Tree.ofEntries fields, e.1 ≠ tag := by
    intro e member equal
    rw [Tree.ofEntries_eq_map] at member
    obtain ⟨f, given, rfl⟩ := List.mem_map.mp member
    exact own (equal ▸ List.mem_map_of_mem given)
  have none : (Tree.ofEntries fields).filter (fun e => e.1 == tag) = [] :=
    List.filter_eq_nil_iff.mpr fun e member => by simpa using others e member
  have all : (Tree.ofEntries fields).filter (fun e => e.1 != tag) = Tree.ofEntries fields :=
    List.filter_eq_self.mpr fun e member => by simpa using others e member
  rw [Tree.ofJson, Tree.ofEntries, Tree.ofJson] at readable ⊢
  simp [taggedOf, readable, none, all, variantOf, known, Tree.ofJson]

theorem memberAt_field {type : TypeExpr} (name key : String) (needed : Bool)
    (description : Option String)
    (read : expressionAt true fuel (.ofJson (expressionJson type)) = some type) :
    memberAt held (fuel + 1) (.ofJson (memberJson (.field name key type needed description))) =
      some (.field name key type needed description) := by
  have known : ["field", "inclusion"].findIdx? (· == "field") = some 0 := by decide +kernel
  rw [memberAt, memberJson, taggedOf_object known (by simp), some_bind]
  simp [Tree.ofJson, Tree.ofEntries, fieldsOf_object, textOf, flagOf, read]

theorem memberAt_inclusion (name : String) :
    memberAt held (fuel + 1) (.ofJson (memberJson (.inclusion name))) =
      some (.inclusion name) := by
  have known : ["field", "inclusion"].findIdx? (· == "inclusion") = some 1 := by decide +kernel
  rw [memberAt, memberJson, taggedOf_object known (by simp), some_bind]
  simp [Tree.ofJson, Tree.ofEntries, fieldsOf_object, textOf]

/-! ### Every expression

The fuel of the reader goes down where the written value opens one level at least. -/

@[simp] theorem nesting_shaped (kind : String) (value : Json) (nullable : Bool) :
    (shaped kind value nullable).nesting = value.nesting + 2 := by
  simp [shaped, Json.nesting, Json.entriesNesting]

theorem nesting_field (name key : String) (type : TypeExpr) (needed : Bool)
    (description : Option String) : (expressionJson type).nesting <
      (memberJson (.field name key type needed description)).nesting := by
  rw [memberJson]
  exact Json.nesting_lt_of_entry "type_expr" (by simp)

mutual

theorem expressionAt_expressionJson : (held : Bool) → (t : TypeExpr) → (fuel : Nat) →
    (expressionJson t).nesting ≤ fuel →
    expressionAt held fuel (.ofJson (expressionJson t)) = some t
  | _, .reference name nullable, fuel + 1, _ => expressionAt_reference name nullable
  | held, .record members nullable, fuel + 1, enough => by
    have inner : (Json.array (membersJson members)).nesting + 2 ≤ fuel + 1 := by
      simpa [expressionJson] using enough
    rw [Json.nesting] at inner
    exact expressionAt_record nullable (mapM_memberAt held members fuel (by omega))
  | held, .array element nullable, fuel + 1, enough => by
    have inner : (expressionJson element).nesting + 2 ≤ fuel + 1 := by
      simpa [expressionJson] using enough
    exact expressionAt_array nullable (expressionAt_expressionJson held element fuel (by omega))
  | held, .union members nullable, fuel + 1, enough => by
    have inner : (Json.array (expressionsJson members)).nesting + 2 ≤ fuel + 1 := by
      simpa [expressionJson] using enough
    rw [Json.nesting] at inner
    exact expressionAt_union nullable (mapM_expressionAt held members fuel (by omega))
  | _, .scalar kind nullable, fuel + 1, _ => expressionAt_scalar kind nullable
  | _, .any nullable, fuel + 1, _ => expressionAt_any nullable
termination_by structural _ t => t

theorem mapM_expressionAt : (held : Bool) → (ts : List TypeExpr) → (fuel : Nat) →
    Json.itemsNesting (expressionsJson ts) ≤ fuel →
    (Tree.ofItems (expressionsJson ts)).mapM (expressionAt held fuel) = some ts
  | _, [], _, _ => rfl
  | held, t :: rest, fuel, enough => by
    obtain ⟨first, later⟩ := Nat.max_le.mp enough
    rw [expressionsJson, Tree.ofItems, List.mapM_cons,
      expressionAt_expressionJson held t fuel first, mapM_expressionAt held rest fuel later]
    rfl
termination_by structural _ ts => ts

theorem memberAt_memberJson : (held : Bool) → (m : Member) → (fuel : Nat) →
    (memberJson m).nesting ≤ fuel → memberAt held fuel (.ofJson (memberJson m)) = some m
  | held, .field name key type needed description, fuel + 1, enough => by
    have inner := nesting_field name key type needed description
    exact memberAt_field name key needed description
      (expressionAt_expressionJson true type fuel (by omega))
  | _, .inclusion name, fuel + 1, _ => memberAt_inclusion name
termination_by structural _ m => m

theorem mapM_memberAt : (held : Bool) → (ms : List Member) → (fuel : Nat) →
    Json.itemsNesting (membersJson ms) ≤ fuel →
    (Tree.ofItems (membersJson ms)).mapM (memberAt held fuel) = some ms
  | _, [], _, _ => rfl
  | held, m :: rest, fuel, enough => by
    obtain ⟨first, later⟩ := Nat.max_le.mp enough
    rw [membersJson, Tree.ofItems, List.mapM_cons, memberAt_memberJson held m fuel first,
      mapM_memberAt held rest fuel later]
    rfl
termination_by structural _ ms => ms

end

/-! ### Declarations -/

/-- The expressions of a declaration are read as far down as its text is. -/
theorem mapM_expressionOf (ts : List TypeExpr)
    (shallow : Json.itemsNesting (expressionsJson ts) ≤ Json.nestingLimit) :
    (Tree.ofItems (expressionsJson ts)).mapM (expressionOf true) = some ts :=
  mapM_expressionAt true ts (Json.nestingLimit + 1) (Nat.le_succ_of_le shallow)

theorem mapM_memberOf (ms : List Member)
    (shallow : Json.itemsNesting (membersJson ms) ≤ Json.nestingLimit) :
    (Tree.ofItems (membersJson ms)).mapM (memberOf true) = some ms :=
  mapM_memberAt true ms (Json.nestingLimit + 1) (Nat.le_succ_of_le shallow)

theorem declarationOf_declarationJson {d : Declaration}
    (shallow : (declarationJson d).nesting ≤ Json.nestingLimit) :
    declarationOf (.ofJson (declarationJson d)) = some d := by
  cases d with
  | record name members description =>
    have inner : (Json.array (membersJson members)).nesting <
        (declarationJson (.record name members description)).nesting :=
      Json.nesting_lt_of_entry "members" (by simp)
    rw [Json.nesting] at inner
    have read := mapM_memberOf members (by omega)
    rw [declarationOf, declarationJson, taggedOf_object (by rfl) (by simp), some_bind]
    simp [Tree.ofJson, Tree.ofEntries, fieldsOf_object, textOf, itemsOf, read]
  | union name members description =>
    have inner : (Json.array (expressionsJson members)).nesting <
        (declarationJson (.union name members description)).nesting :=
      Json.nesting_lt_of_entry "members" (by simp)
    rw [Json.nesting] at inner
    have read := mapM_expressionOf members (by omega)
    rw [declarationOf, declarationJson, taggedOf_object (by rfl) (by simp), some_bind]
    simp [Tree.ofJson, Tree.ofEntries, fieldsOf_object, textOf, itemsOf, read]
  | array name element nullable description =>
    have inner : (expressionJson element).nesting <
        (declarationJson (.array name element nullable description)).nesting :=
      Json.nesting_lt_of_entry "element" (by simp)
    have read := expressionAt_expressionJson true element (Json.nestingLimit + 1) (by omega)
    rw [declarationOf, declarationJson, taggedOf_object (by rfl) (by simp), some_bind]
    simp [Tree.ofJson, Tree.ofEntries, fieldsOf_object, textOf, flagOf, expressionOf, read]
  | scalar name kind nullable description =>
    rw [declarationOf, declarationJson, taggedOf_object (by rfl) (by simp), some_bind]
    simp [Tree.ofJson, Tree.ofEntries, fieldsOf_object, textOf, flagOf]
  | any name nullable description =>
    rw [declarationOf, declarationJson, taggedOf_object (by rfl) (by simp), some_bind]
    simp [Tree.ofJson, Tree.ofEntries, fieldsOf_object, textOf, flagOf]

/-! ### Lists of parts -/

theorem mapM_ofItems {α : Type} {write : α → Json} {read : Tree → Option α} {xs : List α}
    (each : ∀ x ∈ xs, read (.ofJson (write x)) = some x) :
    (Tree.ofItems (xs.map write)).mapM read = some xs := by
  induction xs with
  | nil => rfl
  | cons x rest ih =>
    rw [List.map_cons, Tree.ofItems, List.mapM_cons, each x List.mem_cons_self,
      ih fun y member => each y (List.mem_cons_of_mem x member)]
    rfl

theorem enumMemberOf_enumMemberJson (m : EnumMember) :
    enumMemberOf (.ofJson (enumMemberJson m)) = some m := by
  simp [enumMemberOf, enumMemberJson, Tree.ofJson, Tree.ofEntries, fieldsOf_object, textOf]

theorem enumOf_enumJson (e : EnumDeclaration) : enumOf (.ofJson (enumJson e)) = some e := by
  have members : (Tree.ofItems (e.members.map enumMemberJson)).mapM enumMemberOf =
      some e.members :=
    mapM_ofItems fun m _ => enumMemberOf_enumMemberJson m
  simp [enumOf, enumJson, Tree.ofJson, Tree.ofEntries, fieldsOf_object, textOf, itemsOf, members]

/-! ### Whole sets -/

theorem setOf_setJson {set : DeclarationSet}
    (shallow : (setJson set).nesting ≤ Json.nestingLimit) :
    setOf (.ofJson (setJson set)) = some set := by
  have inner : (Json.array (set.declarations.map declarationJson)).nesting <
      (setJson set).nesting :=
    Json.nesting_lt_of_entry "declarations" (by simp)
  have declarations : (Tree.ofItems (set.declarations.map declarationJson)).mapM declarationOf =
      some set.declarations := by
    refine mapM_ofItems fun d member => declarationOf_declarationJson ?_
    have deeper := Json.nesting_lt_of_item (List.mem_map_of_mem (f := declarationJson) member)
    omega
  have enums : (Tree.ofItems (set.enums.map enumJson)).mapM enumOf = some set.enums :=
    mapM_ofItems fun e _ => enumOf_enumJson e
  have referenced : (Tree.ofItems (set.referenced.toList.map Json.text)).mapM textOf =
      some set.referenced.toList :=
    mapM_ofItems fun _ _ => rfl
  simp [setOf, setJson, Json.texts, Tree.ofJson, Tree.ofEntries, fieldsOf_object, itemsOf, enumsOf,
    declarations, enums, referenced, NameSet.ofList_toList]

/-! ### No numbers -/

theorem isNumberless_option (description : Option String) :
    (Json.option description).isNumberless = true := by
  cases description <;> rfl

theorem areNumberless_map {α : Type} {write : α → Json} {xs : List α}
    (each : ∀ x, (write x).isNumberless = true) :
    Json.areNumberless (xs.map write) = true := by
  induction xs with
  | nil => rfl
  | cons x rest ih => simp [Json.areNumberless, each x, ih]

theorem isNumberless_shaped {value : Json} (kind : String) (nullable : Bool)
    (numberless : value.isNumberless = true) :
    (shaped kind value nullable).isNumberless = true := by
  simp [shaped, Json.isNumberless, Json.areEntriesNumberless, numberless]

mutual

theorem isNumberless_expressionJson : (t : TypeExpr) → (expressionJson t).isNumberless = true
  | .reference .. | .scalar .. | .any _ => rfl
  | .record members nullable =>
    isNumberless_shaped "inline_record" nullable (areNumberless_membersJson members)
  | .array element nullable =>
    isNumberless_shaped "array" nullable (isNumberless_expressionJson element)
  | .union members nullable =>
    isNumberless_shaped "union" nullable (areNumberless_expressionsJson members)
termination_by structural t => t

theorem areNumberless_expressionsJson : (ts : List TypeExpr) →
    Json.areNumberless (expressionsJson ts) = true
  | [] => rfl
  | t :: rest => by
    rw [expressionsJson, Json.areNumberless, isNumberless_expressionJson t,
      areNumberless_expressionsJson rest]
    rfl
termination_by structural ts => ts

theorem isNumberless_memberJson : (m : Member) → (memberJson m).isNumberless = true
  | .field name key type needed description => by
    simp [memberJson, Json.isNumberless, Json.areEntriesNumberless,
      isNumberless_expressionJson type, isNumberless_option]
  | .inclusion _ => rfl
termination_by structural m => m

theorem areNumberless_membersJson : (ms : List Member) →
    Json.areNumberless (membersJson ms) = true
  | [] => rfl
  | m :: rest => by
    rw [membersJson, Json.areNumberless, isNumberless_memberJson m,
      areNumberless_membersJson rest]
    rfl
termination_by structural ms => ms

end

theorem isNumberless_declarationJson (d : Declaration) :
    (declarationJson d).isNumberless = true := by
  cases d <;>
    simp [declarationJson, Json.isNumberless, Json.areEntriesNumberless, isNumberless_option,
      areNumberless_membersJson, areNumberless_expressionsJson, isNumberless_expressionJson]

theorem isNumberless_enumJson (e : EnumDeclaration) : (enumJson e).isNumberless = true := by
  have members : Json.areNumberless (e.members.map enumMemberJson) = true :=
    areNumberless_map fun _ => rfl
  simp [enumJson, Json.isNumberless, Json.areEntriesNumberless, members, isNumberless_option]

theorem isNumberless_setJson (set : DeclarationSet) : (setJson set).isNumberless = true := by
  have declarations : Json.areNumberless (set.declarations.map declarationJson) = true :=
    areNumberless_map isNumberless_declarationJson
  have enums : Json.areNumberless (set.enums.map enumJson) = true :=
    areNumberless_map isNumberless_enumJson
  have referenced : Json.areNumberless (set.referenced.toList.map Json.text) = true :=
    areNumberless_map fun _ => rfl
  simp [setJson, Json.texts, Json.isNumberless, Json.areEntriesNumberless, declarations, enums,
    referenced]

/-! ### The round trip -/

/-- A set of declarations that does not nest too deep for the reader is read back as it was, from
either of its written forms, and from any other spelling of them. -/
theorem read_setJson {set : DeclarationSet}
    (shallow : (setJson set).nesting ≤ Json.nestingLimit) :
    read (setJson set).compact = some set ∧ read (setJson set).indented = some set ∧
      ∀ cs, Json.Padded (setJson set) cs → read (String.ofList cs) = some set := by
  have spelled {cs : List Char} (padded : Json.Padded (setJson set) cs) :
      read (String.ofList cs) = some set := by
    rw [read, Json.read_spelled padded shallow]
    exact setOf_setJson shallow
  have numberless := isNumberless_setJson set
  exact ⟨spelled (Json.spelled_compactChars _ numberless).padded,
    spelled (Json.spelled_indentedChars 0 _ numberless).padded, fun _ => spelled⟩

/-- A set with every kind of declaration, of member and of expression. -/
def kennel : DeclarationSet where
  declarations :=
    [.record "Kennel"
      [.field "'type" "type" (.scalar .string true) true (some "Size\tand\u0001 \"breed\""),
        .field "places" "places"
          (.array (.union [.reference "Dog" false, .record [.inclusion "Owner"] true] true) false)
          false none,
        .inclusion "Owner"] none,
    .union "Guest" [.reference "Dog" true, .any false] (some ""),
    .array "Tags" (.scalar .decimal false) true none,
    .scalar "Count" .int false (some "\\ / é 🐕"),
    .any "Anything" true none]
  enums := [⟨"Mood", [⟨"MOOD_1", "\x00\n"⟩, ⟨"MOOD_GOOD", "good"⟩], none⟩]
  referenced := .ofList ["Owner", "Dog"]

theorem read_kennel : (setJson kennel).nesting ≤ Json.nestingLimit ∧
    read (setJson kennel).compact = some kennel ∧ read (setJson kennel).indented = some kennel :=
  have shallow : (setJson kennel).nesting ≤ Json.nestingLimit := by decide +kernel
  have written := read_setJson shallow
  ⟨shallow, written.1, written.2.1⟩

end Manifest
end SchemaTypes
