import SchemaTypes.Types.Declaration

/-!
# Mentioned names

A name is mentioned wherever a reference or an inclusion of it stands, at any depth. The references
of a type are exactly the names that it mentions.
-/
namespace SchemaTypes

variable {name : String}

mutual

/-- There is a reference to the name in the type, or an inclusion of it. -/
inductive TypeExpr.Mentions : TypeExpr → String → Prop
  | reference (name : String) (nullable : Bool) :
    TypeExpr.Mentions (.reference name nullable) name
  | record {members : List Member} {m : Member} {name : String} (nullable : Bool) :
    m ∈ members → Member.Mentions m name → TypeExpr.Mentions (.record members nullable) name
  | array {element : TypeExpr} {name : String} (nullable : Bool) :
    TypeExpr.Mentions element name → TypeExpr.Mentions (.array element nullable) name
  | union {members : List TypeExpr} {t : TypeExpr} {name : String} (nullable : Bool) :
    t ∈ members → TypeExpr.Mentions t name → TypeExpr.Mentions (.union members nullable) name

inductive Member.Mentions : Member → String → Prop
  | field {type : TypeExpr} {mentioned : String} (name key : String) (required : Bool)
    (description : Option String) : TypeExpr.Mentions type mentioned →
    Member.Mentions (.field name key type required description) mentioned
  | inclusion (name : String) : Member.Mentions (.inclusion name) name

end

/-- A declaration mentions what its body mentions. -/
inductive Declaration.Mentions : Declaration → String → Prop
  | record {members : List Member} {m : Member} {mentioned : String} (name : String)
    (description : Option String) : m ∈ members → m.Mentions mentioned →
    Declaration.Mentions (.record name members description) mentioned
  | union {members : List TypeExpr} {t : TypeExpr} {mentioned : String} (name : String)
    (description : Option String) : t ∈ members → t.Mentions mentioned →
    Declaration.Mentions (.union name members description) mentioned
  | array {element : TypeExpr} {mentioned : String} (name : String) (nullable : Bool)
    (description : Option String) : element.Mentions mentioned →
    Declaration.Mentions (.array name element nullable description) mentioned

/-! ### References of lists -/

@[simp] theorem TypeExpr.mem_listReferences {ts : List TypeExpr} :
    name ∈ TypeExpr.listReferences ts ↔ ∃ t ∈ ts, name ∈ t.references := by
  induction ts with
  | nil => simp [TypeExpr.listReferences]
  | cons t rest ih => simp [TypeExpr.listReferences, ih]

@[simp] theorem Member.mem_listReferences {ms : List Member} :
    name ∈ Member.listReferences ms ↔ ∃ m ∈ ms, name ∈ m.references := by
  induction ms with
  | nil => simp [Member.listReferences]
  | cons m rest ih => simp [Member.listReferences, ih]

/-! ### References are what is mentioned -/

mutual

theorem TypeExpr.Mentions.mem_references {t : TypeExpr} :
    t.Mentions name → name ∈ t.references
  | .reference .. => by simp [TypeExpr.references]
  | .record _ member inside => by
    rw [TypeExpr.references, Member.mem_listReferences]
    exact ⟨_, member, inside.mem_references⟩
  | .array _ inside => by
    rw [TypeExpr.references]
    exact inside.mem_references
  | .union _ member inside => by
    rw [TypeExpr.references, TypeExpr.mem_listReferences]
    exact ⟨_, member, inside.mem_references⟩

theorem Member.Mentions.mem_references {m : Member} :
    m.Mentions name → name ∈ m.references
  | .field _ _ _ _ inside => by
    rw [Member.references]
    exact inside.mem_references
  | .inclusion _ => by simp [Member.references]

end

mutual

theorem TypeExpr.mentions_of_mem : (t : TypeExpr) → name ∈ t.references → t.Mentions name
  | .reference n nullable, member => by
    rw [TypeExpr.references, List.mem_singleton] at member
    exact member ▸ .reference n nullable
  | .record members nullable, member => by
    rw [TypeExpr.references] at member
    obtain ⟨m, listed, inside⟩ := Member.mentions_of_mem_list members member
    exact .record nullable listed inside
  | .array element nullable, member => by
    rw [TypeExpr.references] at member
    exact .array nullable (TypeExpr.mentions_of_mem element member)
  | .union members nullable, member => by
    rw [TypeExpr.references] at member
    obtain ⟨t, listed, inside⟩ := TypeExpr.mentions_of_mem_list members member
    exact .union nullable listed inside
  | .scalar .., member | .any _, member => by simp [TypeExpr.references] at member
termination_by structural t => t

theorem TypeExpr.mentions_of_mem_list :
    (ts : List TypeExpr) → name ∈ TypeExpr.listReferences ts → ∃ t ∈ ts, t.Mentions name
  | [], member => by simp at member
  | t :: rest, member => by
    rw [TypeExpr.listReferences, List.mem_append] at member
    rcases member with first | later
    · exact ⟨t, List.mem_cons_self, TypeExpr.mentions_of_mem t first⟩
    · obtain ⟨r, listed, inside⟩ := TypeExpr.mentions_of_mem_list rest later
      exact ⟨r, List.mem_cons_of_mem _ listed, inside⟩
termination_by structural ts => ts

theorem Member.mentions_of_mem : (m : Member) → name ∈ m.references → m.Mentions name
  | .field n key type required description, member => by
    rw [Member.references] at member
    exact .field n key required description (TypeExpr.mentions_of_mem type member)
  | .inclusion n, member => by
    rw [Member.references, List.mem_singleton] at member
    exact member ▸ .inclusion n
termination_by structural m => m

theorem Member.mentions_of_mem_list :
    (ms : List Member) → name ∈ Member.listReferences ms → ∃ m ∈ ms, m.Mentions name
  | [], member => by simp at member
  | m :: rest, member => by
    rw [Member.listReferences, List.mem_append] at member
    rcases member with first | later
    · exact ⟨m, List.mem_cons_self, Member.mentions_of_mem m first⟩
    · obtain ⟨r, listed, inside⟩ := Member.mentions_of_mem_list rest later
      exact ⟨r, List.mem_cons_of_mem _ listed, inside⟩
termination_by structural ms => ms

end

/-- The references of a declaration are the names that it mentions. -/
theorem Declaration.mem_references_iff {d : Declaration} :
    name ∈ d.references ↔ d.Mentions name := by
  constructor
  · intro member
    cases d with
    | record n members description =>
      obtain ⟨m, listed, inside⟩ := Member.mentions_of_mem_list members member
      exact .record n description listed inside
    | union n members description =>
      obtain ⟨t, listed, inside⟩ := TypeExpr.mentions_of_mem_list members member
      exact .union n description listed inside
    | array n element nullable description =>
      exact .array n nullable description (TypeExpr.mentions_of_mem element member)
    | scalar | any => cases member
  · intro mentioned
    cases mentioned with
    | record _ _ listed inside =>
      exact Member.mem_listReferences.mpr ⟨_, listed, inside.mem_references⟩
    | union _ _ listed inside =>
      exact TypeExpr.mem_listReferences.mpr ⟨_, listed, inside.mem_references⟩
    | array _ _ _ inside => exact inside.mem_references

/-- An inclusion among the members of a declaration is one of its references. -/
theorem Declaration.mem_references_of_inclusion {d : Declaration}
    (member : Member.inclusion name ∈ d.members) : name ∈ d.references := by
  cases d with
  | record n members description =>
    exact Member.mem_listReferences.mpr ⟨.inclusion name, member, by simp [Member.references]⟩
  | _ => cases member

end SchemaTypes
