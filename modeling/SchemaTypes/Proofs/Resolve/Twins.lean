import SchemaTypes.Proofs.Naming.FieldName
import SchemaTypes.Proofs.Types.Relabeling
import SchemaTypes.Resolve.Resolver
import Mathlib.Logic.Equiv.Defs

/-!
# Twins

Two types are twins if they are the same apart from the names of their fields and from a permutation
of the names that they refer to. Fields are named after their keys, with one set of reserved words
in the one type and with another set in the other. Merging decides alike for twins, since different
names correspond to different names.
-/
namespace SchemaTypes

open Naming

/-! ### Correspondence -/

/-- Each of the two is the image of the other. -/
structure Mirrors {α β : Type} (forth : α → β) (back : β → α) (a : α) (b : β) : Prop where
  forth : forth a = b
  back : back b = a

namespace Mirrors

variable {α β : Type} {f : α → β} {g : β → α} {a : α} {b : β} {as : List α} {bs : List β}

theorem symm (mirrors : Mirrors f g a b) : Mirrors g f b a :=
  ⟨mirrors.back, mirrors.forth⟩

theorem nil : Mirrors (List.map f) (List.map g) [] [] :=
  ⟨rfl, rfl⟩

theorem append {cs : List α} {ds : List β} (first : Mirrors (List.map f) (List.map g) as bs)
    (second : Mirrors (List.map f) (List.map g) cs ds) :
    Mirrors (List.map f) (List.map g) (as ++ cs) (bs ++ ds) :=
  ⟨by rw [List.map_append, first.forth, second.forth],
    by rw [List.map_append, first.back, second.back]⟩

theorem singleton (mirrors : Mirrors f g a b) : Mirrors (List.map f) (List.map g) [a] [b] :=
  ⟨congrArg (fun b => [b]) mirrors.forth, congrArg (fun a => [a]) mirrors.back⟩

/-- What stands in a list stands in its image. -/
theorem exists_mem (lists : Mirrors (List.map f) (List.map g) as bs) (member : a ∈ as) :
    ∃ b ∈ bs, Mirrors f g a b := by
  refine ⟨f a, lists.forth ▸ List.mem_map_of_mem member, rfl, ?_⟩
  have back : (as.map f).map g = as := by rw [lists.forth, lists.back]
  -- Back and forth, the whole list stays the same, and so does each part of it.
  rw [List.map_map] at back
  exact List.map_inj_left.mp (back.trans (List.map_id as).symm) a member

theorem mem_of_mem (mirrors : Mirrors f g a b) (lists : Mirrors (List.map f) (List.map g) as bs)
    (member : a ∈ as) : b ∈ bs :=
  lists.forth ▸ mirrors.forth ▸ List.mem_map_of_mem member

theorem exists_cons (lists : Mirrors (List.map f) (List.map g) (a :: as) bs) :
    ∃ b rest, bs = b :: rest ∧ Mirrors f g a b ∧ Mirrors (List.map f) (List.map g) as rest := by
  have back := lists.back
  rw [← lists.forth, List.map_cons, List.map_cons] at back
  injection back with first later
  exact ⟨f a, as.map f, lists.forth.symm, ⟨rfl, first⟩, ⟨rfl, later⟩⟩

/-- The images of different things are different. -/
theorem mem_iff (mirrors : Mirrors f g a b) (lists : Mirrors (List.map f) (List.map g) as bs) :
    a ∈ as ↔ b ∈ bs :=
  ⟨mirrors.mem_of_mem lists, mirrors.symm.mem_of_mem lists.symm⟩

end Mirrors

variable {σ : Equiv.Perm String} {words words' : ReservedWords} {key name : String}
  {t t' : TypeExpr} {ts ts' : List TypeExpr} {m m' : Member} {ms ms' new new' : List Member}

/-- Names for references, and for fields the names that they have with the reserved words. -/
def Labels.spelled (f : String → String) (words : ReservedWords) : Labels :=
  ⟨f, fun _ key => fieldName words key⟩

/-! ### Types -/

namespace TypeExpr

abbrev Twins (σ : Equiv.Perm String) (words words' : ReservedWords) : TypeExpr → TypeExpr → Prop :=
  Mirrors (relabel (.spelled σ words')) (relabel (.spelled σ.symm words))

abbrev TwinLists (σ : Equiv.Perm String) (words words' : ReservedWords) :
    List TypeExpr → List TypeExpr → Prop :=
  Mirrors (List.map (relabel (.spelled σ words'))) (List.map (relabel (.spelled σ.symm words)))

end TypeExpr

namespace Member

abbrev Twins (σ : Equiv.Perm String) (words words' : ReservedWords) : Member → Member → Prop :=
  Mirrors (relabel (.spelled σ words')) (relabel (.spelled σ.symm words))

abbrev TwinLists (σ : Equiv.Perm String) (words words' : ReservedWords) :
    List Member → List Member → Prop :=
  Mirrors (List.map (relabel (.spelled σ words'))) (List.map (relabel (.spelled σ.symm words)))

end Member

namespace TypeExpr.Twins

theorem reference (name : String) (nullable : Bool) :
    Twins σ words words' (.reference name nullable) (.reference (σ name) nullable) :=
  ⟨rfl, congrArg (TypeExpr.reference · nullable) (σ.symm_apply_apply name)⟩

theorem record (lists : Member.TwinLists σ words words' ms ms') (nullable : Bool) :
    Twins σ words words' (.record ms nullable) (.record ms' nullable) := by
  constructor
  · rw [relabel, Member.relabelList_eq, lists.forth]
  · rw [relabel, Member.relabelList_eq, lists.back]

theorem array (element : Twins σ words words' t t') (nullable : Bool) :
    Twins σ words words' (.array t nullable) (.array t' nullable) := by
  constructor
  · rw [relabel, element.forth]
  · rw [relabel, element.back]

theorem union (lists : TwinLists σ words words' ts ts') (nullable : Bool) :
    Twins σ words words' (.union ts nullable) (.union ts' nullable) := by
  constructor
  · rw [relabel, relabelList_eq, lists.forth]
  · rw [relabel, relabelList_eq, lists.back]

theorem scalar (kind : ScalarKind) (nullable : Bool) :
    Twins σ words words' (.scalar kind nullable) (.scalar kind nullable) :=
  ⟨rfl, rfl⟩

theorem any (nullable : Bool) : Twins σ words words' (.any nullable) (.any nullable) :=
  ⟨rfl, rfl⟩

/-- With the same reserved words in both, only the names of references are others. -/
theorem eq_rename (twins : Twins σ words words t t') : t' = t.rename σ := by
  -- The names of the fields of `t'` are those that their keys give, so spelling them changes nothing.
  have spelled : t'.relabel (.spelled id words) = t' := by
    rw [← twins.forth, relabel_relabel]
    rfl
  have there : (Labels.spelled σ.symm words).andThen (.targets σ) = .spelled id words :=
    congrArg (Labels.spelled · words) (funext σ.apply_symm_apply)
  have renamed : t.rename σ = t'.relabel (.spelled id words) := by
    rw [← twins.back, rename, relabel_relabel, there]
  exact (renamed.trans spelled).symm

end TypeExpr.Twins

/-! ### Members -/

namespace Member.Twins

theorem inclusion (fixed : σ name = name) :
    Twins σ words words' (.inclusion name) (.inclusion name) := by
  constructor
  · exact congrArg Member.inclusion fixed
  · exact congrArg Member.inclusion (σ.symm_apply_eq.mpr fixed.symm)

/-- Each field has the name of its key. -/
theorem field (type : TypeExpr.Twins σ words words' t t') (key : String) (required : Bool)
    (description : Option String) :
    Twins σ words words' (.field (Naming.fieldName words key) key t required description)
      (.field (Naming.fieldName words' key) key t' required description) := by
  constructor
  · rw [relabel, type.forth]
    rfl
  · rw [relabel, type.back]
    rfl

/-- Going there and back spells the name of a field anew. -/
theorem fieldName_eq {required : Bool} {description : Option String}
    (twins : Twins σ words words' (.field name key t required description) m') :
    Naming.fieldName words key = name := by
  have back := twins.back
  rw [← twins.forth, relabel, relabel] at back
  injection back

end Member.Twins

/-! ### Merging -/

/-- A union that has a type has its twin in the place of it. -/
theorem TypeExpr.TwinLists.pushType (lists : TypeExpr.TwinLists σ words words' ts ts')
    (twins : TypeExpr.Twins σ words words' t t') :
    TypeExpr.TwinLists σ words words' (pushType ts t) (pushType ts' t') := by
  unfold SchemaTypes.pushType
  by_cases known : t ∈ ts
  · have knownTwin : t' ∈ ts' := (twins.mem_iff lists).mp known
    rw [if_pos known, if_pos knownTwin]
    exact lists
  · have newTwin : t' ∉ ts' := mt (twins.mem_iff lists).mpr known
    rw [if_neg known, if_neg newTwin]
    exact lists.append twins.singleton

namespace Member.TwinLists

/-- If a key gives the name of a field in the one list, it gives the name of its twin. -/
private theorem exists_named (lists : TwinLists σ words words' ms ms')
    (named : ∃ m ∈ ms, m.fieldName = some (Naming.fieldName words key)) :
    ∃ m ∈ ms', m.fieldName = some (Naming.fieldName words' key) := by
  obtain ⟨m, member, named⟩ := named
  obtain ⟨m', member', twins⟩ := lists.exists_mem member
  cases m with
  | inclusion => cases named
  | field name other t required description =>
    have spelled : Naming.fieldName words other = Naming.fieldName words key :=
      (Twins.fieldName_eq twins).trans (Option.some.inj named)
    -- The keys are equal up to blanks, so they have the same name with any reserved words.
    have respelled : Naming.fieldName words' other = Naming.fieldName words' key :=
      fieldName_eq_iff.mpr (fieldName_eq_iff.mp spelled)
    refine ⟨m', member', ?_⟩
    rw [← twins.forth]
    exact congrArg some respelled

theorem repeats_iff (lists : TwinLists σ words words' ms ms') (twins : Twins σ words words' m m') :
    m.repeats ms = true ↔ m'.repeats ms' = true := by
  cases m with
  | inclusion name =>
    have image : m' = .inclusion (σ name) := twins.forth.symm
    subst image
    simp only [Member.repeats, List.contains_iff_mem]
    exact twins.mem_iff lists
  | field name key t required description =>
    obtain rfl : Naming.fieldName words key = name := twins.fieldName_eq
    obtain rfl : _ = m' := twins.forth
    simp only [Member.relabel, Member.repeats, List.any_eq_true, beq_iff_eq]
    exact ⟨exists_named lists, exists_named lists.symm⟩

theorem pushMember (lists : TwinLists σ words words' ms ms') (twins : Twins σ words words' m m') :
    TwinLists σ words words' (pushMember ms m) (pushMember ms' m') := by
  unfold SchemaTypes.pushMember
  by_cases repeated : m.repeats ms = true
  · have repeatedTwin : m'.repeats ms' = true := (lists.repeats_iff twins).mp repeated
    rw [if_pos repeated, if_pos repeatedTwin]
    exact lists
  · have newTwin : ¬ m'.repeats ms' = true := mt (lists.repeats_iff twins).mpr repeated
    rw [if_neg repeated, if_neg newTwin]
    exact lists.append twins.singleton

/-- Of repeated names the same ones survive in both lists. -/
theorem pushMembers (lists : TwinLists σ words words' ms ms')
    (added : TwinLists σ words words' new new') :
    TwinLists σ words words' (pushMembers ms new) (pushMembers ms' new') := by
  induction new generalizing ms ms' new' with
  | nil =>
    obtain rfl : [] = new' := added.forth
    exact lists
  | cons m rest ih =>
    obtain ⟨m', rest', rfl, twins, later⟩ := added.exists_cons
    have merged := ih (pushMember lists twins) later
    exact merged

end Member.TwinLists

end SchemaTypes
