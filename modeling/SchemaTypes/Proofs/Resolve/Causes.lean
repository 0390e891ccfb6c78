import SchemaTypes.Proofs.Resolve.Effects
import SchemaTypes.Proofs.Resolve.Shape

/-!
# What a schema node causes

The effects of resolving a node, read off the node: it refers to the target of its reference, it
asks for an enum for its literals, and it causes what the nodes below it cause that its shape goes
through. Resolution has exactly these effects, from every state.
-/
namespace SchemaTypes.Scope

open Data Naming Resolve ResolveState

/-- The type of the node has a meaning and leads to the shape. -/
def HasShape (scope : Scope) (s : Schema) (shape : Shape) : Prop :=
  ∃ type, scope.nodeType s.facets = .ok type ∧ s.shape type = shape

mutual

/-- An effect of the inline resolution of a node under a type name. -/
inductive Causes (scope : Scope) : Schema → (typeName : String) → Effect → Prop
  | reference {s : Schema} {typeName pointer name : String} :
    scope.HasShape s (.reference pointer) → scope.table.resolvePointer pointer = some name →
    Causes scope s typeName (.refer name)
  | literals {s : Schema} {typeName v : String} {literals : List Json} {vs : List String}
    {null : Bool} : scope.HasShape s (.literals literals) →
    scope.enumLiterals literals = .ok (v :: vs, null) →
    Causes scope s typeName (.request typeName (v :: vs))
  | items {s items : Schema} {typeName : String} {e : Effect} :
    scope.HasShape s (.array (some items)) → Causes scope items (typeName ++ "Item") e →
    Causes scope s typeName e
  /-- Alternatives are numbered from one. -/
  | alternative {s c : Schema} {typeName : String} {ss : List Schema} {i : Nat} {e : Effect} :
    scope.HasShape s (.union ss) → ss[i]? = some c →
    Causes scope c (typeName ++ "Variant" ++ toString (i + 1)) e → Causes scope s typeName e
  | field {s : Schema} {typeName : String} {ps : List (String × Schema)} {p : String × Schema}
    {e : Effect} : scope.HasShape s (.fields ps) → p ∈ ps →
    Causes scope p.2 (propertyTypeName typeName (Text.trim p.1)) e → Causes scope s typeName e
  | merged {s : Schema} {typeName : String} {e : Effect} :
    scope.HasShape s .merged → Contributes scope s typeName e → Causes scope s typeName e

/-- An effect of merging a node into a record. -/
inductive Contributes (scope : Scope) : Schema → (typeName : String) → Effect → Prop
  | member {s m : Schema} {typeName : String} {e : Effect} :
    m ∈ s.allOf → Contributes scope m typeName e → Contributes scope s typeName e
  | field {s : Schema} {typeName : String} {ps : List (String × Schema)} {p : String × Schema}
    {e : Effect} : s.properties = some ps → p ∈ ps →
    Causes scope p.2 (propertyTypeName typeName (Text.trim p.1)) e →
    Contributes scope s typeName e
  | inclusion {s : Schema} {typeName pointer name : String} : s.allOf = [] →
    s.properties = none → s.facets.reference = some pointer →
    scope.table.resolvePointer pointer = some name → Contributes scope s typeName (.refer name)

end

variable {scope : Scope} {s : Schema} {typeName pointer : String} {type : Option NodeType}
  {shape : Shape} {e : Effect} {declaring : Bool} {ι : Type}

mutual

/-- No enum comes under a schema's own name by inline resolution. -/
theorem Causes.ne_own {s : Schema} {typeName name : String} {e : Effect} {values : List String}
    {description : Option String} :
    scope.Causes s typeName e → e ≠ .own name values description
  | .reference _ _ => nofun
  | .literals _ _ => nofun
  | .items _ below => below.ne_own
  | .alternative _ _ below => below.ne_own
  | .field _ _ below => below.ne_own
  | .merged _ contributes => contributes.ne_own

theorem Contributes.ne_own {s : Schema} {typeName name : String} {e : Effect}
    {values : List String} {description : Option String} :
    scope.Contributes s typeName e → e ≠ .own name values description
  | .member _ below => below.ne_own
  | .field _ _ below => below.ne_own
  | .inclusion _ _ _ _ => nofun

end

/-! ### Inversion -/

/-- One of the effects of fields is an effect of one of the properties. -/
def CausesOfFields (scope : Scope) (ps : List (String × Schema)) (typeName : String)
    (e : Effect) : Prop :=
  ∃ p ∈ ps, scope.Causes p.2 (propertyTypeName typeName (Text.trim p.1)) e

/-- The effect of looking up a pointer. -/
def CausesOfPointer (scope : Scope) (pointer : String) (e : Effect) : Prop :=
  ∃ name, scope.table.resolvePointer pointer = some name ∧ e = .refer name

/-- What a node of a shape causes. -/
def CausesOfShape (scope : Scope) (s : Schema) (typeName : String) : Shape → Effect → Prop
  | .reference pointer, e => scope.CausesOfPointer pointer e
  | .literals literals, e => ∃ v vs null, scope.enumLiterals literals = .ok (v :: vs, null) ∧
      e = .request typeName (v :: vs)
  | .array (some items), e => scope.Causes items (typeName ++ "Item") e
  | .union ss, e => ∃ i c, ss[i]? = some c ∧
      scope.Causes c (typeName ++ "Variant" ++ toString (i + 1)) e
  | .fields ps, e => scope.CausesOfFields ps typeName e
  | .merged, e => scope.Contributes s typeName e
  | .array none, _ | .emptyRecord, _ | .scalar _, _ | .any, _ => False

theorem HasShape.unique {other : Shape} (first : scope.HasShape s shape)
    (second : scope.HasShape s other) : shape = other := by
  obtain ⟨type, named, rfl⟩ := first
  obtain ⟨type', named', rfl⟩ := second
  cases named.symm.trans named'
  rfl

theorem causes_iff (shaped : scope.HasShape s shape) :
    scope.Causes s typeName e ↔ scope.CausesOfShape s typeName shape e := by
  constructor
  · intro causes
    cases causes with
    | reference other found =>
      cases shaped.unique other
      exact ⟨_, found, rfl⟩
    | literals other read =>
      cases shaped.unique other
      exact ⟨_, _, _, read, rfl⟩
    | items other below =>
      cases shaped.unique other
      exact below
    | alternative other listed below =>
      cases shaped.unique other
      exact ⟨_, _, listed, below⟩
    | field other member below =>
      cases shaped.unique other
      exact ⟨_, member, below⟩
    | merged other contributes =>
      cases shaped.unique other
      exact contributes
  · intro causes
    cases shape with
    | reference =>
      obtain ⟨name, found, rfl⟩ := causes
      exact .reference shaped found
    | literals =>
      obtain ⟨v, vs, null, read, rfl⟩ := causes
      exact .literals shaped read
    | array items =>
      cases items with
      | some => exact .items shaped causes
      | none => exact causes.elim
    | union =>
      obtain ⟨i, c, listed, below⟩ := causes
      exact .alternative shaped listed below
    | fields =>
      obtain ⟨p, member, below⟩ := causes
      exact .field shaped member below
    | merged => exact .merged shaped causes
    | emptyRecord | scalar | any => exact causes.elim

theorem contributes_iff : scope.Contributes s typeName e ↔
    (∃ m ∈ s.allOf, scope.Contributes m typeName e) ∨
      (∃ ps, s.properties = some ps ∧ scope.CausesOfFields ps typeName e) ∨
      s.allOf = [] ∧ s.properties = none ∧
        ∃ pointer, s.facets.reference = some pointer ∧ scope.CausesOfPointer pointer e := by
  constructor
  · intro contributes
    cases contributes with
    | member listed below => exact Or.inl ⟨_, listed, below⟩
    | field given member below => exact Or.inr (Or.inl ⟨_, given, _, member, below⟩)
    | inclusion noAllOf noProperties given found =>
      exact Or.inr (Or.inr ⟨noAllOf, noProperties, _, given, _, found, rfl⟩)
  · rintro (⟨m, listed, below⟩ | ⟨ps, given, p, member, below⟩ |
      ⟨noAllOf, noProperties, pointer, given, name, found, rfl⟩)
    · exact .member listed below
    · exact .field given member below
    · exact .inclusion noAllOf noProperties given found

/-! ### Lists -/

/-- Looking a pointer up is the only effect where what comes next has none. -/
theorem uniform_referenceTarget_bind {α : Type} {f : ι → String → Resolve α}
    (rest : ∀ name, scope.table.resolvePointer pointer = some name →
      Uniform (fun i => f i name) fun _ => False) :
    Uniform (fun i => scope.referenceTarget pointer >>= f i) (scope.CausesOfPointer pointer) := by
  unfold referenceTarget
  cases found : scope.table.resolvePointer pointer with
  | none => exact .throw _ _
  | some name =>
    -- The target is known without the state, so what comes next may be chosen by it.
    simp only [bind_assoc, pure_bind]
    refine ((Uniform.effect (.refer name)).bind (f := fun i _ => f i name)
      ((rest name found).comp Prod.fst)).congr fun e => ?_
    simp [CausesOfPointer, found]

theorem uniform_resolveFields {ps : List (String × Schema)}
    (properties : ∀ p ∈ ps, ∀ typeName, Uniform (fun _ : Unit => scope.resolve p.2 typeName)
      (scope.Causes p.2 typeName)) (required : List String) (typeName : String) :
    Uniform (fun _ : Unit => scope.resolveFields ps required typeName)
      (scope.CausesOfFields ps typeName) := by
  induction ps with
  | nil => exact (Uniform.pure fun _ => []).congr (by simp [CausesOfFields])
  | cons p rest ih =>
    have first := properties p List.mem_cons_self (propertyTypeName typeName (Text.trim p.1))
    have later := ih fun q member => properties q (List.mem_cons_of_mem _ member)
    -- The fields of the rest do not need the type of the first one.
    refine (first.bind ((later.comp fun _ => ()).map _)).congr fun e => ?_
    simp [CausesOfFields]

theorem uniform_resolveAlternatives {ss : List Schema}
    (alternatives : ∀ s ∈ ss, ∀ typeName, Uniform (fun _ : Unit => scope.resolve s typeName)
      (scope.Causes s typeName)) (typeName : String) (number : Nat) :
    Uniform (fun types => scope.resolveAlternatives ss typeName number types)
      fun e => ∃ i c, ss[i]? = some c ∧
        scope.Causes c (typeName ++ "Variant" ++ toString (i + number)) e := by
  induction ss generalizing number with
  | nil => exact (Uniform.pure id).congr (by simp)
  | cons s rest ih =>
    have first := alternatives s List.mem_cons_self (typeName ++ "Variant" ++ toString number)
    have later := ih (fun r member => alternatives r (List.mem_cons_of_mem _ member)) (number + 1)
    refine ((first.comp fun _ => ()).bind
      (later.comp fun p : _ × TypeExpr => pushType p.1 p.2)).congr fun e => ?_
    -- The alternative comes first or at the next position of the rest.
    constructor
    · rintro (here | ⟨i, c, listed, below⟩)
      · exact ⟨0, s, rfl, by simpa using here⟩
      · exact ⟨i + 1, c, listed, by rwa [Nat.add_assoc, Nat.add_comm 1]⟩
    · rintro ⟨_ | i, c, listed, below⟩
      · cases listed
        exact Or.inl (by simpa using below)
      · exact Or.inr ⟨i, c, listed, by rwa [Nat.add_assoc, Nat.add_comm 1] at below⟩

theorem uniform_mergeMembers {ss : List Schema}
    (members : ∀ s ∈ ss, Uniform (fun _ : Unit => scope.memberParts declaring s typeName)
      (scope.Contributes s typeName)) :
    Uniform (fun merged => scope.mergeMembers declaring ss typeName merged)
      fun e => ∃ s ∈ ss, scope.Contributes s typeName e := by
  induction ss with
  | nil => exact (Uniform.pure id).congr (by simp)
  | cons s rest ih =>
    have first := members s List.mem_cons_self
    have later := ih fun r member => members r (List.mem_cons_of_mem _ member)
    -- What is merged so far is only passed on, so the rest has the same effects for all of it.
    refine ((first.comp fun _ => ()).bind
      (later.comp fun p : _ × List Member => pushMembers p.1 p.2)).congr fun e => ?_
    simp

theorem uniform_resolveEnum (literals : List Json) (nullable : Bool) (typeName : String) :
    Uniform (fun _ : ι => scope.resolveEnum literals nullable typeName) fun e =>
      ∃ v vs null, scope.enumLiterals literals = .ok (v :: vs, null) ∧
        e = .request typeName (v :: vs) := by
  refine .lift_bind fun read given => ?_
  obtain ⟨_ | ⟨v, vs⟩, null⟩ := read
  · refine (Uniform.pure _).congr fun e => ?_
    simp [given]
  · -- The answer to the request is the one thing that the state decides.
    let value (_ : ι) (answer : String → Option String) :=
      TypeExpr.reference ((answer typeName).getD typeName) (nullable || null)
    refine ⟨[.request typeName (v :: vs)], .ok value, fun _ => ⟨fun before => ?_, ?_⟩,
      by simp [given]⟩
    · simp only [Except.map, value, perform_cons, perform_nil, Effect.apply, enumFor?_request,
        Option.getD_some]
      rfl
    · rintro value member f g agree
      obtain rfl := Option.mem_some.mp member
      exact congrArg (fun name => TypeExpr.reference (name.getD typeName) (nullable || null))
        (agree typeName _ List.mem_cons_self)

/-! ### Nodes -/

section Children

variable
  (resolves : ∀ c ∈ s.children, ∀ typeName, Uniform (fun _ : Unit => scope.resolve c typeName)
    (scope.Causes c typeName))
  (contributes : ∀ c ∈ s.children, ∀ typeName,
    Uniform (fun _ : Unit => scope.memberParts declaring c typeName)
      (scope.Contributes c typeName))
include resolves contributes

theorem uniform_flatten_of_children (given : s.allOf ≠ []) (typeName : String) :
    Uniform (fun _ : Unit => scope.flatten declaring s typeName)
      (scope.Contributes s typeName) := by
  have merged := uniform_mergeMembers fun m (member : m ∈ s.allOf) =>
    contributes m (Schema.mem_children_of_allOf member) typeName
  unfold flatten
  cases found : s.properties with
  | none =>
    refine ((merged.comp fun _ => []).map fun _ ms => ms).congr fun e => ?_
    rw [contributes_iff]
    simp [found, given]
  | some ps =>
    have properties p (member : p ∈ ps) :=
      resolves p.2 (Schema.mem_children_of_property found member)
    have fields := uniform_resolveFields properties s.facets.required typeName
    refine ((merged.comp fun _ => []).bind ((fields.comp fun _ => ()).map _)).congr fun e => ?_
    rw [contributes_iff]
    simp [found, given]

theorem uniform_partsOfShare_of_children (type : Option NodeType) (typeName : String) :
    Uniform (fun _ : Unit => scope.partsOfShare declaring s typeName (s.share type))
      (scope.Contributes s typeName) := by
  have given := s.of_share type
  cases found : s.share type with
  | nested =>
    rw [found] at given
    exact uniform_flatten_of_children resolves contributes given typeName
  | refused kind => exact .throw _ _
  | fields ps =>
    rw [found] at given
    obtain ⟨noAllOf, found⟩ := given
    have properties p (member : p ∈ ps) :=
      resolves p.2 (Schema.mem_children_of_property found member)
    refine (uniform_resolveFields properties _ typeName).congr fun e => ?_
    rw [contributes_iff]
    simp [noAllOf, found]
  | inclusion pointer =>
    rw [found] at given
    obtain ⟨noAllOf, noProperties, reference⟩ := given
    refine (uniform_referenceTarget_bind fun name _ => ?_).congr fun e => ?_
    · cases declaring with
      | false => exact .pure _
      | true => exact .lift_bind fun _ _ => .pure _
    · rw [contributes_iff]
      simp [noAllOf, noProperties, reference]
  | nothing =>
    rw [found] at given
    obtain ⟨noAllOf, noProperties, noReference⟩ := given
    refine (Uniform.pure fun _ => []).congr fun e => ?_
    rw [contributes_iff]
    simp [noAllOf, noProperties, noReference]

end Children

theorem uniform_typeOfShape_of_children (type : Option NodeType) (typeName : String)
    (resolves : ∀ c ∈ s.children, ∀ typeName, Uniform (fun _ : Unit => scope.resolve c typeName)
      (scope.Causes c typeName))
    (contributes : ∀ c ∈ s.children, ∀ typeName,
      Uniform (fun _ : Unit => scope.memberParts false c typeName)
        (scope.Contributes c typeName)) :
    Uniform (fun _ : Unit => scope.typeOfShape s typeName (s.shape type))
      (scope.CausesOfShape s typeName (s.shape type)) := by
  have merged : s.shape type = .merged → s.allOf ≠ [] := Schema.shape_eq_merged
  have parts : ∀ c ∈ (s.shape type).parts, ∀ typeName,
      Uniform (fun _ : Unit => scope.resolve c typeName) (scope.Causes c typeName) :=
    fun c part => resolves c (Schema.mem_children_of_parts part)
  -- Each shape goes on with one of the computations above, and only wraps what that returns.
  generalize s.shape type = shape at parts merged ⊢
  cases shape with
  | merged =>
    exact (uniform_flatten_of_children resolves contributes (merged rfl) typeName).map _
  | union ss =>
    have alternatives := uniform_resolveAlternatives parts typeName 1
    exact (alternatives.comp fun _ => []).map _
  | fields ps =>
    have properties p (member : p ∈ ps) := parts p.2 (List.mem_map_of_mem member)
    exact (uniform_resolveFields properties _ typeName).map _
  | reference pointer => exact uniform_referenceTarget_bind fun name _ => .pure _
  | array items =>
    cases items with
    | none => exact .pure _
    | some items => exact (parts items List.mem_cons_self (typeName ++ "Item")).map _
  | literals literals => exact uniform_resolveEnum literals _ typeName
  | emptyRecord | scalar | any => exact .pure _

/-! ### Resolutions -/

private theorem uniform_resolve_memberParts (scope : Scope) (s : Schema) :
    ∀ typeName, Uniform (fun _ : Unit => scope.resolve s typeName) (scope.Causes s typeName) ∧
      Uniform (fun _ : Unit => scope.memberParts false s typeName)
        (scope.Contributes s typeName) := by
  induction s using Schema.induction with
  | step s ih =>
    intro typeName
    have resolves c (child : c ∈ s.children) typeName := (ih c child typeName).1
    have contributes c (child : c ∈ s.children) typeName := (ih c child typeName).2
    rw [resolve_eq, memberParts_eq]
    constructor
    · refine .lift_bind fun type named => ?_
      exact (uniform_typeOfShape_of_children type typeName resolves contributes).congr fun e =>
        (causes_iff ⟨type, named, rfl⟩).symm
    · refine .lift_bind fun type _ => ?_
      exact uniform_partsOfShare_of_children resolves contributes type typeName

/-- From every state, an inline resolution has the effects that its node causes, or it fails with
the same error. -/
theorem uniform_resolve (scope : Scope) (s : Schema) (typeName : String) :
    Uniform (fun _ : Unit => scope.resolve s typeName) (scope.Causes s typeName) :=
  (uniform_resolve_memberParts scope s typeName).1

theorem uniform_memberParts (scope : Scope) (declaring : Bool) (s : Schema) (typeName : String) :
    Uniform (fun _ : Unit => scope.memberParts declaring s typeName)
      (scope.Contributes s typeName) := by
  induction s using Schema.induction generalizing typeName with
  | step s ih =>
    rw [memberParts_eq]
    refine .lift_bind fun type _ => ?_
    exact uniform_partsOfShare_of_children (fun c _ => uniform_resolve scope c) ih type typeName

/-! ### Declarations -/

/-- What the declaration of a schema of a shape causes. Literals are declared under the name of the
schema, and everything else happens as inline. -/
def DeclarationCausesOfShape (scope : Scope) (s : Schema) : Shape → Effect → Prop
  | .literals literals, e => ∃ v vs null, scope.enumLiterals literals = .ok (v :: vs, null) ∧
      e = .own scope.schema (v :: vs) s.summary
  | shape, e => scope.CausesOfShape s scope.schema shape e

/-- An effect of the declaration of a schema. -/
def DeclarationCauses (scope : Scope) (s : Schema) (e : Effect) : Prop :=
  ∃ shape, scope.HasShape s shape ∧ scope.DeclarationCausesOfShape s shape e

/-- The enum of a schema has its name and its description. -/
theorem DeclarationCauses.own_spec {name : String} {values : List String}
    {description : Option String}
    (causes : scope.DeclarationCauses s (.own name values description)) :
    name = scope.schema ∧ description = s.summary := by
  obtain ⟨shape, shaped, causes⟩ := causes
  cases shape with
  | literals =>
    obtain ⟨v, vs, null, -, same⟩ := causes
    cases same
    exact ⟨rfl, rfl⟩
  | _ =>
    have inline : scope.Causes s scope.schema (.own name values description) :=
      (causes_iff shaped).mpr causes
    exact absurd rfl inline.ne_own

theorem DeclarationCauses.own_eq {name : String} {values : List String}
    {description : Option String}
    (causes : scope.DeclarationCauses s (.own name values description)) : name = scope.schema :=
  causes.own_spec.1

theorem uniform_declareEnum (scope : Scope) (literals : List Json) (description : Option String) :
    Uniform (fun _ : Unit => scope.declareEnum literals description) fun e =>
      ∃ v vs null, scope.enumLiterals literals = .ok (v :: vs, null) ∧
        e = .own scope.schema (v :: vs) description := by
  refine .lift_bind fun read given => ?_
  obtain ⟨_ | ⟨v, vs⟩, null⟩ := read
  · refine (Uniform.pure _).congr fun e => ?_
    simp [given]
  · refine ((Uniform.effect (.own scope.schema (v :: vs) description)).map _).congr fun e => ?_
    simp [given]

theorem uniform_outcomeOfShape (scope : Scope) (s : Schema) (type : Option NodeType) :
    Uniform (fun _ : Unit => scope.outcomeOfShape s (s.shape type))
      (scope.DeclarationCausesOfShape s (s.shape type)) := by
  have merged : s.shape type = .merged → s.allOf ≠ [] := Schema.shape_eq_merged
  have resolves := uniform_resolve scope
  generalize s.shape type = shape at merged ⊢
  cases shape with
  | merged =>
    have contributes c (_ : c ∈ s.children) := uniform_memberParts scope true c
    exact (uniform_flatten_of_children (fun c _ => resolves c) contributes (merged rfl) _).map _
  | union ss =>
    have alternatives :=
      uniform_resolveAlternatives (fun c (_ : c ∈ ss) => resolves c) scope.schema 1
    exact (alternatives.comp fun _ => []).map _
  | fields ps => exact (uniform_resolveFields (fun p _ => resolves p.2) _ scope.schema).map _
  | reference pointer =>
    exact uniform_referenceTarget_bind fun name _ => .lift_bind fun _ _ => .pure _
  | array items =>
    cases items with
    | none => exact .pure _
    | some items => exact (resolves items (scope.schema ++ "Item")).map _
  | literals literals => exact uniform_declareEnum scope literals s.summary
  | emptyRecord | scalar => exact .pure _
  | any =>
    unfold outcomeOfShape
    cases s.declaredNullability with
    | none => exact .pure _
    | some nullable => exact .pure _

/-- From every state, a declaration has the effects that its schema causes, or it fails with the
same error. -/
theorem uniform_declare (scope : Scope) (s : Schema) :
    Uniform (fun _ : Unit => scope.declare s) (scope.DeclarationCauses s) := by
  rw [declare_eq]
  refine .lift_bind fun type named => (uniform_outcomeOfShape scope s type).congr fun e => ?_
  constructor
  · exact fun causes => ⟨_, ⟨type, named, rfl⟩, causes⟩
  · rintro ⟨shape, shaped, causes⟩
    exact (shaped.unique ⟨type, named, rfl⟩) ▸ causes

end SchemaTypes.Scope
