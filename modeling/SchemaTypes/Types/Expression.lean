import SchemaTypes.Data.NameSet

/-!
# Type expressions

Types that can stand inside another type. A record is given by its members: fields of its own, and
inclusions that embed the fields of a named record.
-/
namespace SchemaTypes

/-- The types that values without parts have. -/
inductive ScalarKind where
  | string
  | int
  | float
  | decimal
  | boolean
deriving Repr, DecidableEq, Inhabited

mutual

/-- A type, and whether it admits null. -/
inductive TypeExpr where
  | reference (name : String) (nullable : Bool)
  | record (members : List Member) (nullable : Bool)
  | array (element : TypeExpr) (nullable : Bool)
  | union (members : List TypeExpr) (nullable : Bool)
  | scalar (kind : ScalarKind) (nullable : Bool)
  | any (nullable : Bool)

/-- A field, with the property key that it was made from, or the inclusion of a record. -/
inductive Member where
  | field (name key : String) (type : TypeExpr) (required : Bool) (description : Option String)
  | inclusion (name : String)

end

instance : Inhabited TypeExpr := ⟨.any false⟩

instance : Inhabited Member := ⟨.inclusion ""⟩

/-! ### Equality -/

mutual

def TypeExpr.decEq : (a b : TypeExpr) → Decidable (a = b)
  | .reference n x, .reference m y => decidable_of_iff (n = m ∧ x = y) (by simp)
  | .record ms x, .record ns y =>
    have := Member.decEqList ms ns
    decidable_of_iff (ms = ns ∧ x = y) (by simp)
  | .array s x, .array t y =>
    have := TypeExpr.decEq s t
    decidable_of_iff (s = t ∧ x = y) (by simp)
  | .union ss x, .union ts y =>
    have := TypeExpr.decEqList ss ts
    decidable_of_iff (ss = ts ∧ x = y) (by simp)
  | .scalar j x, .scalar k y => decidable_of_iff (j = k ∧ x = y) (by simp)
  | .any x, .any y => decidable_of_iff (x = y) (by simp)
  | .reference .., .record .. | .reference .., .array .. | .reference .., .union ..
  | .reference .., .scalar .. | .reference .., .any _ => isFalse (by simp)
  | .record .., .reference .. | .record .., .array .. | .record .., .union ..
  | .record .., .scalar .. | .record .., .any _ => isFalse (by simp)
  | .array .., .reference .. | .array .., .record .. | .array .., .union ..
  | .array .., .scalar .. | .array .., .any _ => isFalse (by simp)
  | .union .., .reference .. | .union .., .record .. | .union .., .array ..
  | .union .., .scalar .. | .union .., .any _ => isFalse (by simp)
  | .scalar .., .reference .. | .scalar .., .record .. | .scalar .., .array ..
  | .scalar .., .union .. | .scalar .., .any _ => isFalse (by simp)
  | .any _, .reference .. | .any _, .record .. | .any _, .array .. | .any _, .union ..
  | .any _, .scalar .. => isFalse (by simp)
termination_by structural a => a

def TypeExpr.decEqList : (as bs : List TypeExpr) → Decidable (as = bs)
  | [], [] => isTrue rfl
  | a :: as, b :: bs =>
    have := TypeExpr.decEq a b
    have := TypeExpr.decEqList as bs
    decidable_of_iff (a = b ∧ as = bs) (by simp)
  | [], _ :: _ | _ :: _, [] => isFalse (by simp)
termination_by structural as => as

def Member.decEq : (a b : Member) → Decidable (a = b)
  | .field n k s r d, .field n' k' s' r' d' =>
    have := TypeExpr.decEq s s'
    decidable_of_iff (n = n' ∧ k = k' ∧ s = s' ∧ r = r' ∧ d = d') (by simp)
  | .inclusion n, .inclusion m => decidable_of_iff (n = m) (by simp)
  | .field .., .inclusion _ | .inclusion _, .field .. => isFalse (by simp)
termination_by structural a => a

def Member.decEqList : (as bs : List Member) → Decidable (as = bs)
  | [], [] => isTrue rfl
  | a :: as, b :: bs =>
    have := Member.decEq a b
    have := Member.decEqList as bs
    decidable_of_iff (a = b ∧ as = bs) (by simp)
  | [], _ :: _ | _ :: _, [] => isFalse (by simp)
termination_by structural as => as

end

instance : DecidableEq TypeExpr := TypeExpr.decEq

instance : DecidableEq Member := Member.decEq

/-! ### Parts -/

namespace TypeExpr

def nullable : TypeExpr → Bool
  | .reference _ n | .record _ n | .array _ n | .union _ n | .scalar _ n | .any n => n

def isUnion : TypeExpr → Bool
  | .union .. => true
  | _ => false

end TypeExpr

mutual

/-- The names that a type refers to, at any depth, inclusions among them. -/
def TypeExpr.references : TypeExpr → List String
  | .reference name _ => [name]
  | .record members _ => Member.listReferences members
  | .array element _ => element.references
  | .union members _ => TypeExpr.listReferences members
  | .scalar .. | .any _ => []
termination_by structural t => t

def TypeExpr.listReferences : List TypeExpr → List String
  | [] => []
  | t :: rest => t.references ++ TypeExpr.listReferences rest
termination_by structural ts => ts

def Member.references : Member → List String
  | .field _ _ type _ _ => type.references
  | .inclusion name => [name]
termination_by structural m => m

def Member.listReferences : List Member → List String
  | [] => []
  | m :: rest => m.references ++ Member.listReferences rest
termination_by structural ms => ms

end

/-- The name of a field, nothing for an inclusion. -/
def Member.fieldName : Member → Option String
  | .field name .. => some name
  | .inclusion _ => none

/-- The name of an included record, nothing for a field. -/
def Member.inclusionName : Member → Option String
  | .field .. => none
  | .inclusion name => some name

end SchemaTypes
