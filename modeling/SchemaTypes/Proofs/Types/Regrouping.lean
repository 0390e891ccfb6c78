import SchemaTypes.Types.Expression
import Mathlib.Data.List.Forall2

/-!
# Types up to the grouping of their unions

A union inside a union is one list of alternatives with it, unless it admits null itself, and a
union of one alternative is that alternative. Types that differ in such groups only, and in the keys
and descriptions of their fields, are equivalent. Two types are equivalent just if they have the
same list of alternatives.
-/
namespace SchemaTypes

namespace TypeExpr

/-- The types differ at most in the groups of their unions, and in the keys and the descriptions of
their fields. -/
inductive Equivalent : TypeExpr → TypeExpr → Prop
  | refl (t : TypeExpr) : Equivalent t t
  | symm {s t : TypeExpr} : Equivalent s t → Equivalent t s
  | trans {s t u : TypeExpr} : Equivalent s t → Equivalent t u → Equivalent s u
  | array {s t : TypeExpr} (nullable : Bool) : Equivalent s t →
    Equivalent (.array s nullable) (.array t nullable)
  | field {s t : TypeExpr} (front back : List Member) (name k l : String) (needed : Bool)
      (d e : Option String) (nullable : Bool) : Equivalent s t →
    Equivalent (.record (front ++ .field name k s needed d :: back) nullable)
      (.record (front ++ .field name l t needed e :: back) nullable)
  | member {s t : TypeExpr} (front back : List TypeExpr) (nullable : Bool) : Equivalent s t →
    Equivalent (.union (front ++ s :: back) nullable) (.union (front ++ t :: back) nullable)
  | splice (front members back : List TypeExpr) (nullable : Bool) :
    Equivalent (.union (front ++ .union members false :: back) nullable)
      (.union (front ++ (members ++ back)) nullable)
  | single (t : TypeExpr) : Equivalent (.union [t] false) t

/-- The type with the alternatives. -/
def grouped : List TypeExpr → TypeExpr
  | [t] => t
  | ts => .union ts false

end TypeExpr

mutual

/-- The alternatives of a type. No alternative is a union, unless it admits null itself, and the
same holds of the types in it. -/
def TypeExpr.alternatives : TypeExpr → List TypeExpr
  | .reference name nullable => [.reference name nullable]
  | .record members nullable => [.record (Member.plainList members) nullable]
  | .array element nullable => [.array (.grouped element.alternatives) nullable]
  | .union members nullable =>
    if nullable then [.union (TypeExpr.listAlternatives members) true]
    else TypeExpr.listAlternatives members
  | .scalar kind nullable => [.scalar kind nullable]
  | .any nullable => [.any nullable]
termination_by structural t => t

def TypeExpr.listAlternatives : List TypeExpr → List TypeExpr
  | [] => []
  | t :: rest => t.alternatives ++ TypeExpr.listAlternatives rest
termination_by structural ts => ts

/-- A field without its key and its description. -/
def Member.plain : Member → Member
  | .field name _ type needed _ => .field name "" (.grouped type.alternatives) needed none
  | .inclusion name => .inclusion name
termination_by structural m => m

def Member.plainList : List Member → List Member
  | [] => []
  | m :: rest => m.plain :: Member.plainList rest
termination_by structural ms => ms

end

namespace TypeExpr

variable {s t : TypeExpr}

/-! ### A type and its alternatives -/

theorem equivalent_grouped (ts : List TypeExpr) :
    Equivalent (.union ts false) (.grouped ts) := by
  match ts with
  | [] => exact .refl _
  | [t] => exact .single t
  | _ :: _ :: _ => exact .refl _

/-- A group inside a union dissolves. -/
theorem splice_grouped (front ts back : List TypeExpr) (nullable : Bool) :
    Equivalent (.union (front ++ .grouped ts :: back) nullable)
      (.union (front ++ (ts ++ back)) nullable) :=
  .trans (.member front back nullable (.symm (equivalent_grouped ts)))
    (.splice front ts back nullable)

mutual

theorem equivalent_alternatives : (t : TypeExpr) → Equivalent t (.grouped t.alternatives)
  | .reference .. | .scalar .. | .any _ => .refl _
  | .record members nullable => equivalent_plainList [] members nullable
  | .array element nullable => .array nullable (equivalent_alternatives element)
  | .union members true => equivalent_listAlternatives [] members true
  | .union members false =>
    .trans (equivalent_listAlternatives [] members false) (equivalent_grouped _)
termination_by structural t => t

theorem equivalent_listAlternatives : (front ts : List TypeExpr) → (nullable : Bool) →
    Equivalent (.union (front ++ ts) nullable) (.union (front ++ listAlternatives ts) nullable)
  | _, [], _ => .refl _
  | front, t :: rest, nullable => by
    -- The first member dissolves into the front, behind which the others are regrouped.
    have first := Equivalent.member front rest nullable (equivalent_alternatives t)
    have dissolved := splice_grouped front t.alternatives rest nullable
    have later := equivalent_listAlternatives (front ++ t.alternatives) rest nullable
    rw [List.append_assoc, List.append_assoc] at later
    exact .trans first (.trans dissolved later)
termination_by structural _ ts => ts

theorem equivalent_plainList : (front ms : List Member) → (nullable : Bool) →
    Equivalent (.record (front ++ ms) nullable) (.record (front ++ Member.plainList ms) nullable)
  | _, [], _ => .refl _
  | front, .field name key type needed description :: rest, nullable => by
    have first := Equivalent.field front rest name key "" needed description none nullable
      (equivalent_alternatives type)
    have later := equivalent_plainList
      (front ++ [.field name "" (.grouped type.alternatives) needed none]) rest nullable
    rw [List.append_assoc, List.append_assoc] at later
    exact .trans first later
  | front, .inclusion name :: rest, nullable => by
    have later := equivalent_plainList (front ++ [.inclusion name]) rest nullable
    rw [List.append_assoc, List.append_assoc] at later
    exact later
termination_by structural _ ms => ms

end

/-! ### Equivalent types -/

theorem listAlternatives_append (front back : List TypeExpr) :
    listAlternatives (front ++ back) = listAlternatives front ++ listAlternatives back := by
  induction front with
  | nil => rfl
  | cons t rest ih =>
    rw [List.cons_append, listAlternatives, listAlternatives, ih, List.append_assoc]

theorem plainList_append (front back : List Member) :
    Member.plainList (front ++ back) = Member.plainList front ++ Member.plainList back := by
  induction front with
  | nil => rfl
  | cons m rest ih =>
    rw [List.cons_append, Member.plainList, Member.plainList, ih, List.cons_append]

theorem Equivalent.alternatives_eq (equivalent : Equivalent s t) :
    s.alternatives = t.alternatives := by
  induction equivalent with
  | refl => rfl
  | symm _ ih => exact ih.symm
  | trans _ _ first second => exact first.trans second
  | array nullable _ ih => rw [alternatives, alternatives, ih]
  | field front back name k l needed d e nullable _ ih =>
    simp only [alternatives, plainList_append, Member.plainList, Member.plain, ih]
  | member front back nullable _ ih =>
    simp only [alternatives, listAlternatives_append, listAlternatives, ih]
  | splice front members back nullable =>
    simp [alternatives, listAlternatives_append, listAlternatives]
  | single t => simp [alternatives, listAlternatives]

/-- The alternatives of a type tell it from all types that are not equivalent. -/
theorem equivalent_iff : Equivalent s t ↔ s.alternatives = t.alternatives := by
  constructor
  · exact Equivalent.alternatives_eq
  · intro same
    have left := equivalent_alternatives s
    rw [same] at left
    exact .trans left (.symm (equivalent_alternatives t))

/-! ### Outermost forms -/

/-- Is the type a union that only groups its members? -/
def isGroup (t : TypeExpr) : Bool :=
  t.isUnion && !t.nullable

/-- The members embed the same record, or they are fields of the same name and of equivalent types
that are both required or both not. -/
inductive MatchesMember : Member → Member → Prop
  | field {s t : TypeExpr} (name k l : String) (needed : Bool) (d e : Option String) :
    Equivalent s t → MatchesMember (.field name k s needed d) (.field name l t needed e)
  | inclusion (name : String) : MatchesMember (.inclusion name) (.inclusion name)

/-- The types have the same outermost form, and equivalent types inside. -/
inductive Matches : TypeExpr → TypeExpr → Prop
  | reference (name : String) (nullable : Bool) :
    Matches (.reference name nullable) (.reference name nullable)
  | record {ms ns : List Member} (nullable : Bool) : List.Forall₂ MatchesMember ms ns →
    Matches (.record ms nullable) (.record ns nullable)
  | array {s t : TypeExpr} (nullable : Bool) : Equivalent s t →
    Matches (.array s nullable) (.array t nullable)
  | union {ss ts : List TypeExpr} (nullable : Bool) :
    Equivalent (.union ss false) (.union ts false) →
    Matches (.union ss nullable) (.union ts nullable)
  | scalar (kind : ScalarKind) (nullable : Bool) :
    Matches (.scalar kind nullable) (.scalar kind nullable)
  | any (nullable : Bool) : Matches (.any nullable) (.any nullable)

theorem equivalent_of_grouped_eq
    (same : grouped s.alternatives = grouped t.alternatives) : Equivalent s t := by
  have left := equivalent_alternatives s
  rw [same] at left
  exact .trans left (.symm (equivalent_alternatives t))

theorem matchesMember_of_plain_eq {m n : Member} (same : m.plain = n.plain) :
    MatchesMember m n := by
  cases m with
  | field name k s needed d =>
    cases n with
    | field =>
      simp only [Member.plain, Member.field.injEq] at same
      obtain ⟨rfl, -, types, rfl, -⟩ := same
      exact .field name _ _ needed _ _ (equivalent_of_grouped_eq types)
    | inclusion => simp [Member.plain] at same
  | inclusion name =>
    cases n with
    | field => simp [Member.plain] at same
    | inclusion =>
      simp only [Member.plain, Member.inclusion.injEq] at same
      obtain rfl := same
      exact .inclusion name

theorem matchesMember_of_plainList_eq {ms ns : List Member}
    (same : Member.plainList ms = Member.plainList ns) : List.Forall₂ MatchesMember ms ns := by
  induction ms generalizing ns with
  | nil =>
    cases ns with
    | nil => exact .nil
    | cons => simp [Member.plainList] at same
  | cons m rest ih =>
    cases ns with
    | nil => simp [Member.plainList] at same
    | cons n others =>
      obtain ⟨first, later⟩ := List.cons.inj same
      exact .cons (matchesMember_of_plain_eq first) (ih later)

/-- The type with its parts regrouped. -/
def inner : TypeExpr → TypeExpr
  | .record members nullable => .record (Member.plainList members) nullable
  | .array element nullable => .array (grouped element.alternatives) nullable
  | .union members nullable => .union (listAlternatives members) nullable
  | t => t

theorem alternatives_of_not_group (closed : t.isGroup = false) : t.alternatives = [t.inner] := by
  cases t with
  | union members nullable =>
    obtain rfl : nullable = true := by simpa [isGroup, isUnion, TypeExpr.nullable] using closed
    rfl
  | _ => rfl

theorem matches_of_inner_eq (same : s.inner = t.inner) : Matches s t := by
  cases s with
  | reference name nullable =>
    cases t <;> simp [inner] at same
    obtain ⟨rfl, rfl⟩ := same
    exact .reference name nullable
  | record ms nullable =>
    cases t <;> simp [inner] at same
    obtain ⟨members, rfl⟩ := same
    exact .record nullable (matchesMember_of_plainList_eq members)
  | array s nullable =>
    cases t <;> simp [inner] at same
    obtain ⟨elements, rfl⟩ := same
    exact .array nullable (equivalent_of_grouped_eq elements)
  | union ss nullable =>
    cases t <;> simp [inner] at same
    obtain ⟨members, rfl⟩ := same
    exact .union nullable (equivalent_iff.mpr members)
  | scalar kind nullable =>
    cases t <;> simp [inner] at same
    obtain ⟨rfl, rfl⟩ := same
    exact .scalar kind nullable
  | any nullable =>
    cases t <;> simp [inner] at same
    obtain rfl := same
    exact .any nullable

/-- Equivalent types match, unless one of them is a group. -/
theorem Equivalent.matches_of_not_group (equivalent : Equivalent s t) (left : s.isGroup = false)
    (right : t.isGroup = false) : Matches s t := by
  have same := equivalent.alternatives_eq
  rw [alternatives_of_not_group left, alternatives_of_not_group right] at same
  exact matches_of_inner_eq (List.cons.inj same).1

end TypeExpr
end SchemaTypes
