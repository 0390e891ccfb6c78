import SchemaTypes.Proofs.Document.Descendants
import SchemaTypes.Proofs.Resolve.Declare
import SchemaTypes.Proofs.Types.Parts

/-!
# Where types come from

Whatever stands inside a resolved type is resolved from a node of the schema, except for the type of
missing items. So is whatever stands inside a declaration, and each body of a record in it is made
from one node.
-/
namespace SchemaTypes.Scope

open Naming Resolve

variable {scope : Scope} {declaring : Bool} {s : Schema} {t u : TypeExpr} {m : Member}
  {ms : List Member} {typeName : String} {before after : ResolveState}

/-- The node resolves to the type, under some name and in some state. -/
def Resolves (scope : Scope) (s : Schema) (t : TypeExpr) : Prop :=
  ∃ typeName before after, Returns (scope.resolve s typeName) before t after

/-- The member is a field for a property of the node. -/
def HasField (scope : Scope) (s : Schema) (m : Member) : Prop :=
  ∃ ps, s.properties = some ps ∧ ∃ p ∈ ps, ∃ type required, scope.Resolves p.2 type ∧
    m = .field (fieldName scope.reserved (Text.trim p.1)) (Text.trim p.1) type required
      (scope.fieldDescription p.2)

/-- The member includes what a pointer designates. -/
def IsInclusion (scope : Scope) (m : Member) : Prop :=
  ∃ pointer target, scope.table.resolvePointer pointer = some target ∧ m = .inclusion target

/-- The type is resolved from a node of the schema, or stands for missing items. -/
def Origin (scope : Scope) (s : Schema) (t : TypeExpr) : Prop :=
  t = .any false ∨ ∃ c, s.Contains c ∧ scope.Resolves c t

/-- The ways in which the body of a record is made from a node. -/
inductive Body (scope : Scope) (s : Schema) : List Member → Prop
  | empty : Body scope s []
  | fields {ps : List (String × Schema)} {required : List String} {typeName : String}
    {before after : ResolveState} {ms : List Member} : s.properties = some ps →
    Returns (scope.resolveFields ps required typeName) before ms after → Body scope s ms
  | merged {declaring : Bool} {typeName : String} {before after : ResolveState}
    {ms : List Member} : Returns (scope.flatten declaring s typeName) before ms after →
    Body scope s ms
  | inclusion {pointer target : String} : s.facets.reference = some pointer →
    scope.table.resolvePointer pointer = some target → Body scope s [.inclusion target]

/-! ### Members of lists -/

theorem mem_resolveFields {ps : List (String × Schema)} {required : List String}
    (returned : Returns (scope.resolveFields ps required typeName) before ms after)
    (member : m ∈ ms) :
    ∃ p ∈ ps, ∃ type required, scope.Resolves p.2 type ∧
      m = .field (fieldName scope.reserved (Text.trim p.1)) (Text.trim p.1) type required
        (scope.fieldDescription p.2) := by
  induction ps generalizing before ms with
  | nil =>
    obtain ⟨rfl, -⟩ := resolveFields_nil.mp returned
    cases member
  | cons p rest ih =>
    obtain ⟨type, mid, fields, first, later, rfl⟩ := resolveFields_cons.mp returned
    rcases List.mem_cons.mp member with rfl | inside
    · exact ⟨p, List.mem_cons_self, type, _, ⟨_, _, _, first⟩, rfl⟩
    · obtain ⟨q, listed, found⟩ := ih later inside
      exact ⟨q, List.mem_cons_of_mem _ listed, found⟩

theorem mem_resolveAlternatives {ss : List Schema} {number : Nat} {types result : List TypeExpr}
    (returned : Returns (scope.resolveAlternatives ss typeName number types) before result after)
    (member : t ∈ result) : t ∈ types ∨ ∃ c ∈ ss, scope.Resolves c t := by
  induction ss generalizing before number types with
  | nil =>
    obtain ⟨rfl, -⟩ := resolveAlternatives_nil.mp returned
    exact Or.inl member
  | cons c rest ih =>
    obtain ⟨type, mid, first, later⟩ := resolveAlternatives_cons.mp returned
    rcases ih later with earlier | ⟨d, listed, resolves⟩
    · rcases mem_pushType earlier with old | rfl
      · exact Or.inl old
      · exact Or.inr ⟨c, List.mem_cons_self, _, _, _, first⟩
    · exact Or.inr ⟨d, List.mem_cons_of_mem _ listed, resolves⟩

theorem mem_mergeMembers {ss : List Schema} {merged : List Member}
    (returned : Returns (scope.mergeMembers declaring ss typeName merged) before ms after)
    (member : m ∈ ms) :
    m ∈ merged ∨ ∃ c ∈ ss, ∃ start parts final,
      Returns (scope.memberParts declaring c typeName) start parts final ∧ m ∈ parts := by
  induction ss generalizing before merged with
  | nil =>
    obtain ⟨rfl, -⟩ := mergeMembers_nil.mp returned
    exact Or.inl member
  | cons c rest ih =>
    obtain ⟨parts, mid, first, later⟩ := mergeMembers_cons.mp returned
    rcases ih later with earlier | ⟨d, listed, found⟩
    · rcases mem_pushMembers earlier with old | new
      · exact Or.inl old
      · exact Or.inr ⟨c, List.mem_cons_self, _, parts, _, first, new⟩
    · exact Or.inr ⟨d, List.mem_cons_of_mem _ listed, found⟩

/-! ### Merged records -/

/-- A merged record has the members that its nested ones contribute, and the fields of the node. -/
private theorem mem_flatten_of_members
    (members : ∀ c ∈ s.allOf, ∀ start parts final,
      Returns (scope.memberParts declaring c typeName) start parts final → m ∈ parts →
      scope.IsInclusion m ∨ ∃ node, c.Contains node ∧ scope.HasField node m)
    (returned : Returns (scope.flatten declaring s typeName) before ms after) (member : m ∈ ms) :
    scope.IsInclusion m ∨ ∃ node, s.Contains node ∧ scope.HasField node m := by
  obtain ⟨merged, mid, first, last⟩ := flatten_returns.mp returned
  have nested : m ∈ merged →
      scope.IsInclusion m ∨ ∃ node, s.Contains node ∧ scope.HasField node m := by
    intro inside
    rcases mem_mergeMembers first inside with old | ⟨c, listed, start, parts, final, run, part⟩
    · cases old
    · refine (members c listed start parts final run part).imp_right ?_
      rintro ⟨node, below, field⟩
      exact ⟨node, below.head (Schema.mem_children_of_allOf listed), field⟩
  rcases last with ⟨-, rfl, -⟩ | ⟨ps, fields, given, own, rfl⟩
  · exact nested member
  · rcases mem_pushMembers member with earlier | new
    · exact nested earlier
    · exact Or.inr ⟨s, .refl, ps, given, mem_resolveFields own new⟩

/-- What a member of `allOf` contributes are inclusions and fields for properties below it. -/
theorem mem_memberParts
    (returned : Returns (scope.memberParts declaring s typeName) before ms after)
    (member : m ∈ ms) :
    scope.IsInclusion m ∨ ∃ node, s.Contains node ∧ scope.HasField node m := by
  induction s using Schema.induction generalizing before ms after with
  | step s ih =>
    rw [memberParts_eq, returns_bind] at returned
    obtain ⟨type, mid, -, last⟩ := returned
    cases found : s.share type with
    | nested =>
      rw [found] at last
      refine mem_flatten_of_members (fun c listed start parts final run part => ?_) last member
      exact ih c (Schema.mem_children_of_allOf listed) run part
    | refused kind =>
      rw [found] at last
      exact absurd last returns_throw
    | fields ps =>
      rw [found] at last
      exact Or.inr ⟨s, .refl, ps, Schema.share_eq_fields found, mem_resolveFields last member⟩
    | inclusion pointer =>
      rw [found, partsOfShare, returns_bind] at last
      obtain ⟨target, state, first, last⟩ := last
      -- Checked or not, the only contribution is the inclusion.
      have single : ms = [.inclusion target] := by
        cases declaring with
        | false => exact (returns_pure.mp last).1.symm
        | true =>
          obtain ⟨_, _, -, last⟩ := returns_bind.mp last
          exact (returns_pure.mp last).1.symm
      rw [single, List.mem_singleton] at member
      exact Or.inl ⟨pointer, target, (referenceTarget_returns.mp first).1, member⟩
    | nothing =>
      rw [found] at last
      obtain ⟨rfl, -⟩ := returns_pure.mp last
      cases member

theorem mem_flatten (returned : Returns (scope.flatten declaring s typeName) before ms after)
    (member : m ∈ ms) :
    scope.IsInclusion m ∨ ∃ node, s.Contains node ∧ scope.HasField node m :=
  mem_flatten_of_members (fun _ _ _ _ _ => mem_memberParts) returned member

/-- The fields of a body are made from properties of the nodes of the schema. -/
theorem Body.mem (body : scope.Body s ms) (member : m ∈ ms) :
    scope.IsInclusion m ∨ ∃ node, s.Contains node ∧ scope.HasField node m := by
  cases body with
  | empty => cases member
  | fields given returned => exact Or.inr ⟨s, .refl, _, given, mem_resolveFields returned member⟩
  | merged returned => exact mem_flatten returned member
  | inclusion _ designated => exact Or.inl ⟨_, _, designated, List.mem_singleton.mp member⟩

/-! ### One step inside -/

theorem Origin.of_child {c : Schema} (child : c ∈ s.children) (resolves : scope.Resolves c t) :
    scope.Origin s t :=
  Or.inr ⟨c, .single child, resolves⟩

theorem Body.origin (body : scope.Body s ms) (inside : t ∈ ms.filterMap Member.fieldType) :
    scope.Origin s t := by
  obtain ⟨name, key, required, description, member⟩ := mem_filterMap_fieldType.mp inside
  rcases body.mem member with
    ⟨_, _, _, same⟩ | ⟨node, below, ps, given, p, listed, type, _, resolves, same⟩
  · cases same
  · obtain rfl : t = type := by injection same
    have child : p.2 ∈ node.children := Schema.mem_children_of_property given listed
    exact Or.inr ⟨p.2, below.tail child, resolves⟩

theorem origin_of_mem_alternatives {ss : List Schema} {result : List TypeExpr}
    (children : ∀ c ∈ ss, c ∈ s.children)
    (returned : Returns (scope.resolveAlternatives ss typeName 1 []) before result after)
    (member : t ∈ result) : scope.Origin s t := by
  rcases mem_resolveAlternatives returned member with nothing | ⟨c, listed, resolves⟩
  · cases nothing
  · exact Origin.of_child (children c listed) resolves

/-! ### Types by shape -/

/-- What a node of the shape resolves to. -/
inductive TypeOf (scope : Scope) (s : Schema) : Shape → TypeExpr → Prop
  | merged {ms : List Member} : scope.Body s ms → TypeOf scope s .merged (.record ms s.isNullable)
  | fields {ps : List (String × Schema)} {ms : List Member} : scope.Body s ms →
    TypeOf scope s (.fields ps) (.record ms s.isNullable)
  | emptyRecord : TypeOf scope s .emptyRecord (.record [] s.isNullable)
  | union (ss : List Schema) {ts : List TypeExpr} : (∀ t ∈ ts, scope.Origin s t) →
    TypeOf scope s (.union ss) (.union ts s.isNullable)
  | array (items : Option Schema) {element : TypeExpr} : scope.Origin s element →
    TypeOf scope s (.array items) (.array element s.isNullable)
  | reference {pointer target : String} : scope.table.resolvePointer pointer = some target →
    TypeOf scope s (.reference pointer)
      (.reference target (s.isNullable || (scope.table.get? target).any Schema.admitsNull))
  | nulls (literals : List Json) :
    TypeOf scope s (.literals literals) (.scalar .string (s.isNullable || literals.any Json.isNull))
  | enum (literals : List Json) (name : String) :
    TypeOf scope s (.literals literals) (.reference name (s.isNullable || literals.any Json.isNull))
  | scalar (kind : ScalarKind) : TypeOf scope s (.scalar kind) (.scalar kind s.isNullable)
  | any : TypeOf scope s .any (.any s.isNullable)

/-- Null is reported exactly if it is one of the literals. -/
theorem null_of_enumLiterals_eq_ok {literals : List Json} {values : List String} {null : Bool}
    (read : scope.enumLiterals literals = .ok (values, null)) :
    null = literals.any Json.isNull := by
  induction literals generalizing values null with
  | nil =>
    cases read
    rfl
  | cons l rest ih =>
    cases l with
    | text value =>
      rw [enumLiterals] at read
      obtain ⟨⟨others, nullLater⟩, first, last⟩ := bind_eq_ok.mp read
      cases last
      exact ih first
    | null =>
      rw [enumLiterals] at read
      obtain ⟨⟨others, nullLater⟩, first, last⟩ := bind_eq_ok.mp read
      cases last
      rfl
    | _ => cases read

theorem typeOf_of_returns {type : Option NodeType}
    (returned : Returns (scope.typeOfShape s typeName (s.shape type)) before t after) :
    scope.TypeOf s (s.shape type) t := by
  have parts : ∀ c ∈ (s.shape type).parts, c ∈ s.children :=
    fun c => Schema.mem_children_of_parts
  have properties ps (found : s.shape type = .fields ps) := Schema.shape_eq_fields found
  -- What the shape says about the node is kept, and then each shape is a computation of its own.
  generalize s.shape type = shape at parts properties returned ⊢
  cases shape with
  | merged =>
    obtain ⟨ms, mid, first, last⟩ := returns_bind.mp returned
    obtain ⟨rfl, -⟩ := returns_pure.mp last
    exact .merged (.merged first)
  | fields ps =>
    obtain ⟨ms, mid, first, last⟩ := returns_bind.mp returned
    obtain ⟨rfl, -⟩ := returns_pure.mp last
    exact .fields (.fields (properties ps rfl) first)
  | emptyRecord =>
    obtain ⟨rfl, -⟩ := returns_pure.mp returned
    exact .emptyRecord
  | union ss =>
    obtain ⟨ts, mid, first, last⟩ := returns_bind.mp returned
    obtain ⟨rfl, -⟩ := returns_pure.mp last
    exact .union ss fun t member => origin_of_mem_alternatives parts first member
  | array items =>
    cases items with
    | none =>
      obtain ⟨rfl, -⟩ := returns_pure.mp returned
      exact .array none (Or.inl rfl)
    | some items =>
      obtain ⟨element, mid, first, last⟩ := returns_bind.mp returned
      obtain ⟨rfl, -⟩ := returns_pure.mp last
      exact .array _ (Origin.of_child (parts items List.mem_cons_self) ⟨_, _, _, first⟩)
  | reference pointer =>
    obtain ⟨target, mid, first, last⟩ := returns_bind.mp returned
    obtain ⟨rfl, -⟩ := returns_pure.mp last
    exact .reference (referenceTarget_returns.mp first).1
  | literals literals =>
    obtain ⟨⟨values, null⟩, mid, first, last⟩ := returns_bind.mp returned
    obtain ⟨read, -⟩ := returns_lift.mp first
    obtain rfl := null_of_enumLiterals_eq_ok read
    cases values with
    | nil =>
      obtain ⟨rfl, -⟩ := returns_pure.mp last
      exact .nulls literals
    | cons v vs =>
      cases last
      exact .enum literals _
  | scalar kind =>
    obtain ⟨rfl, -⟩ := returns_pure.mp returned
    exact .scalar kind
  | any =>
    obtain ⟨rfl, -⟩ := returns_pure.mp returned
    exact .any

theorem Resolves.typeOf (resolves : scope.Resolves s t) :
    ∃ type, scope.nodeType s.facets = .ok type ∧ scope.TypeOf s (s.shape type) t := by
  obtain ⟨typeName, before, after, returned⟩ := resolves
  rw [resolve_eq, returns_bind] at returned
  obtain ⟨type, mid, first, last⟩ := returned
  exact ⟨type, (returns_lift.mp first).1, typeOf_of_returns last⟩

theorem TypeOf.origin {shape : Shape} (typed : scope.TypeOf s shape t) (inside : u ∈ t.types) :
    scope.Origin s u := by
  cases typed with
  | merged body | fields body => exact body.origin inside
  | union _ alternatives => exact alternatives u inside
  | array _ element => exact List.mem_singleton.mp inside ▸ element
  | emptyRecord | reference | nulls | enum | scalar | any => cases inside

theorem TypeOf.body {shape : Shape} {nullable : Bool}
    (typed : scope.TypeOf s shape (.record ms nullable)) : scope.Body s ms := by
  cases typed with
  | merged body | fields body => exact body
  | emptyRecord => exact .empty

/-! ### Any depth -/

/-- A part of a type that comes from a schema comes from it as well. -/
theorem Origin.of_part (origin : scope.Origin s t) (part : t.Part u) : scope.Origin s u := by
  induction part with
  | refl => exact origin
  | tail _ inside ih =>
    rcases ih with rfl | ⟨c, below, resolves⟩
    · cases inside
    · obtain ⟨_, -, typed⟩ := resolves.typeOf
      refine (typed.origin inside).imp_right ?_
      rintro ⟨d, deeper, found⟩
      exact ⟨d, below.trans deeper, found⟩

/-- A record that comes from a schema has the body of one of its nodes. -/
theorem Origin.body {nullable : Bool} (origin : scope.Origin s (.record ms nullable)) :
    ∃ c, s.Contains c ∧ scope.Body c ms := by
  rcases origin with same | ⟨c, below, resolves⟩
  · cases same
  · obtain ⟨_, -, typed⟩ := resolves.typeOf
    exact ⟨c, below, typed.body⟩

end SchemaTypes.Scope
