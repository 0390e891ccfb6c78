import SchemaTypes.Types.Declaration

/-!
# Types under other labels

A type keeps its form under other labels: other names in the places of its references, and other
names for its fields, which may be chosen by their keys.
-/
namespace SchemaTypes

/-- New names for those in a type. -/
structure Labels where
  /-- The name in the place of a referenced or included one. -/
  target : String → String
  field : (name key : String) → String

/-- Names for references. Fields keep theirs. -/
def Labels.targets (f : String → String) : Labels :=
  ⟨f, fun name _ => name⟩

/-- The empty name for every field. References keep theirs. -/
def Labels.blank : Labels :=
  ⟨id, fun _ _ => ""⟩

/-- First the one labels, then the others. -/
def Labels.andThen (l m : Labels) : Labels :=
  ⟨m.target ∘ l.target, fun name key => m.field (l.field name key) key⟩

mutual

/-- The type with new names, at any depth. -/
def TypeExpr.relabel (l : Labels) : TypeExpr → TypeExpr
  | .reference name nullable => .reference (l.target name) nullable
  | .record members nullable => .record (Member.relabelList l members) nullable
  | .array element nullable => .array (element.relabel l) nullable
  | .union members nullable => .union (TypeExpr.relabelList l members) nullable
  | .scalar kind nullable => .scalar kind nullable
  | .any nullable => .any nullable
termination_by structural t => t

def TypeExpr.relabelList (l : Labels) : List TypeExpr → List TypeExpr
  | [] => []
  | t :: rest => t.relabel l :: TypeExpr.relabelList l rest
termination_by structural ts => ts

def Member.relabel (l : Labels) : Member → Member
  | .field name key type required description =>
    .field (l.field name key) key (type.relabel l) required description
  | .inclusion name => .inclusion (l.target name)
termination_by structural m => m

def Member.relabelList (l : Labels) : List Member → List Member
  | [] => []
  | m :: rest => m.relabel l :: Member.relabelList l rest
termination_by structural ms => ms

end

/-- The declaration with new names in its body. It is not renamed itself. -/
def Declaration.relabel (l : Labels) : Declaration → Declaration
  | .record name members description => .record name (members.map (Member.relabel l)) description
  | .union name members description => .union name (members.map (TypeExpr.relabel l)) description
  | .array name element nullable description =>
    .array name (element.relabel l) nullable description
  | .scalar name kind nullable description => .scalar name kind nullable description
  | .any name nullable description => .any name nullable description

/-- The type with other names for what it refers to. -/
abbrev TypeExpr.rename (f : String → String) (t : TypeExpr) : TypeExpr :=
  t.relabel (.targets f)

/-- The declaration without the names of its fields, at any depth. -/
abbrev Declaration.withoutFieldNames (d : Declaration) : Declaration :=
  d.relabel .blank

variable {l m : Labels}

@[simp] theorem TypeExpr.relabelList_eq (l : Labels) (ts : List TypeExpr) :
    TypeExpr.relabelList l ts = ts.map (TypeExpr.relabel l) := by
  induction ts with
  | nil => rfl
  | cons t rest ih => rw [TypeExpr.relabelList, ih, List.map_cons]

@[simp] theorem Member.relabelList_eq (l : Labels) (ms : List Member) :
    Member.relabelList l ms = ms.map (Member.relabel l) := by
  induction ms with
  | nil => rfl
  | cons m rest ih => rw [Member.relabelList, ih, List.map_cons]

/-! ### One after the other -/

mutual

theorem TypeExpr.relabel_relabel (l m : Labels) :
    (t : TypeExpr) → (t.relabel l).relabel m = t.relabel (l.andThen m)
  | .reference .. | .scalar .. | .any _ => rfl
  | .record members nullable => by
    rw [TypeExpr.relabel, TypeExpr.relabel, TypeExpr.relabel, Member.relabelList_relabelList]
  | .array element nullable => by
    rw [TypeExpr.relabel, TypeExpr.relabel, TypeExpr.relabel, TypeExpr.relabel_relabel]
  | .union members nullable => by
    rw [TypeExpr.relabel, TypeExpr.relabel, TypeExpr.relabel, TypeExpr.relabelList_relabelList]
termination_by structural t => t

theorem TypeExpr.relabelList_relabelList (l m : Labels) : (ts : List TypeExpr) →
    TypeExpr.relabelList m (TypeExpr.relabelList l ts) = TypeExpr.relabelList (l.andThen m) ts
  | [] => rfl
  | t :: rest => by
    rw [TypeExpr.relabelList, TypeExpr.relabelList, TypeExpr.relabelList,
      TypeExpr.relabel_relabel, TypeExpr.relabelList_relabelList]
termination_by structural ts => ts

theorem Member.relabel_relabel (l m : Labels) :
    (member : Member) → (member.relabel l).relabel m = member.relabel (l.andThen m)
  | .field name key type required description => by
    rw [Member.relabel, Member.relabel, Member.relabel, TypeExpr.relabel_relabel]
    rfl
  | .inclusion _ => rfl
termination_by structural member => member

theorem Member.relabelList_relabelList (l m : Labels) : (ms : List Member) →
    Member.relabelList m (Member.relabelList l ms) = Member.relabelList (l.andThen m) ms
  | [] => rfl
  | member :: rest => by
    rw [Member.relabelList, Member.relabelList, Member.relabelList, Member.relabel_relabel,
      Member.relabelList_relabelList]
termination_by structural ms => ms

end

theorem Declaration.relabel_relabel (l m : Labels) (d : Declaration) :
    (d.relabel l).relabel m = d.relabel (l.andThen m) := by
  cases d with
  | record | union => simp [relabel, Member.relabel_relabel, TypeExpr.relabel_relabel]
  | array => simp [relabel, TypeExpr.relabel_relabel]
  | scalar | any => rfl

/-! ### References -/

mutual

theorem TypeExpr.references_relabel (l : Labels) :
    (t : TypeExpr) → (t.relabel l).references = t.references.map l.target
  | .reference .. | .scalar .. | .any _ => rfl
  | .record members nullable => by
    rw [TypeExpr.relabel, TypeExpr.references, TypeExpr.references,
      Member.listReferences_relabelList]
  | .array element nullable => by
    rw [TypeExpr.relabel, TypeExpr.references, TypeExpr.references, TypeExpr.references_relabel]
  | .union members nullable => by
    rw [TypeExpr.relabel, TypeExpr.references, TypeExpr.references,
      TypeExpr.listReferences_relabelList]
termination_by structural t => t

theorem TypeExpr.listReferences_relabelList (l : Labels) : (ts : List TypeExpr) →
    TypeExpr.listReferences (TypeExpr.relabelList l ts) =
      (TypeExpr.listReferences ts).map l.target
  | [] => rfl
  | t :: rest => by
    rw [TypeExpr.relabelList, TypeExpr.listReferences, TypeExpr.listReferences, List.map_append,
      TypeExpr.references_relabel, TypeExpr.listReferences_relabelList]
termination_by structural ts => ts

theorem Member.references_relabel (l : Labels) :
    (m : Member) → (m.relabel l).references = m.references.map l.target
  | .field name key type required description => by
    rw [Member.relabel, Member.references, Member.references, TypeExpr.references_relabel]
  | .inclusion _ => rfl
termination_by structural m => m

theorem Member.listReferences_relabelList (l : Labels) : (ms : List Member) →
    Member.listReferences (Member.relabelList l ms) = (Member.listReferences ms).map l.target
  | [] => rfl
  | m :: rest => by
    rw [Member.relabelList, Member.listReferences, Member.listReferences, List.map_append,
      Member.references_relabel, Member.listReferences_relabelList]
termination_by structural ms => ms

end

/-- A declaration refers to the new names, in the places of the old ones. -/
theorem Declaration.references_relabel (l : Labels) (d : Declaration) :
    (d.relabel l).references = d.references.map l.target := by
  cases d with
  | record name members =>
    rw [relabel, references, references, ← Member.relabelList_eq,
      Member.listReferences_relabelList]
  | union name members =>
    rw [relabel, references, references, ← TypeExpr.relabelList_eq,
      TypeExpr.listReferences_relabelList]
  | array name element => exact element.references_relabel l
  | scalar | any => rfl

@[simp] theorem Declaration.name_relabel (l : Labels) (d : Declaration) :
    (d.relabel l).name = d.name := by
  cases d <;> rfl

end SchemaTypes
