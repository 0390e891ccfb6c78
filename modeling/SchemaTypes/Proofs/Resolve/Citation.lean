import SchemaTypes.Proofs.Resolve.State
import SchemaTypes.Proofs.Resolve.Traversal

/-!
# Every reference has a target

Whatever a resolution returns, each name in it is recorded as referenced, and is an enum or what a
pointer designates in the table.
-/
namespace SchemaTypes

open Resolve ResolveState

namespace ResolveState

/-- The name is recorded as referenced and there is something under it. -/
structure Tracks (s : ResolveState) (table : SchemaTable) (name : String) : Prop where
  referenced : name ∈ s.referenced
  target : name ∈ s.enums.names ∨ ∃ pointer, table.resolvePointer pointer = some name

theorem Tracks.mono {before after : ResolveState} {table : SchemaTable} {owned : List String}
    {name : String} (tracks : before.Tracks table name) (grows : Grows owned before after) :
    after.Tracks table name :=
  ⟨grows.referenced name tracks.referenced, tracks.target.imp_left grows.names⟩

end ResolveState

namespace Scope

variable {α β : Type} {scope : Scope} {known : List String}

/-- From a sound state that tracks the known names, the computation goes in steps and tracks the
names in what it returns. -/
def Cites (scope : Scope) (known : List String) (m : Resolve α) (references : α → List String) :
    Prop :=
  ∀ ⦃before a after⦄, before.Sound → (∀ name ∈ known, before.Tracks scope.table name) →
    Returns m before a after →
    Steps scope.table before after ∧ ∀ name ∈ references a, after.Tracks scope.table name

namespace Cites

variable {m : Resolve α} {references : α → List String} {f : α → Resolve β}
  {results : β → List String}

theorem pure {a : α} (cited : references a ⊆ known) : scope.Cites known (pure a) references := by
  intro before b after _ tracked returned
  obtain ⟨rfl, rfl⟩ := returns_pure.mp returned
  exact ⟨Relation.ReflTransGen.refl, fun name member => tracked name (cited member)⟩

theorem throw (e : Error) : scope.Cites known (throw e) references :=
  fun _ _ _ _ _ returned => absurd returned returns_throw

theorem lift (x : Except Error α) : scope.Cites known (liftM x) fun _ => [] := by
  intro before a after _ _ returned
  obtain ⟨-, rfl⟩ := returns_lift.mp returned
  exact ⟨Relation.ReflTransGen.refl, by simp⟩

/-- What the first part returns is known to the second one. -/
theorem bind (first : scope.Cites known m references)
    (rest : ∀ a, scope.Cites (known ++ references a) (f a) results) :
    scope.Cites known (m >>= f) results := by
  intro before b after sound tracked returned
  obtain ⟨a, mid, one, two⟩ := returns_bind.mp returned
  obtain ⟨toMid, cited⟩ := first sound tracked one
  -- Nothing is taken away on the way to the second part, so the known names are still tracked.
  have all : ∀ name ∈ known ++ references a, mid.Tracks scope.table name := by
    intro name member
    rcases List.mem_append.mp member with old | new
    · exact (tracked name old).mono (toMid.grows sound)
    · exact cited name new
  obtain ⟨toEnd, result⟩ := rest a (toMid.sound sound) all two
  exact ⟨toMid.trans toEnd, result⟩

end Cites

/-! ### Names with a target -/

theorem referenceTarget_cites (pointer : String) :
    scope.Cites known (scope.referenceTarget pointer) fun name => [name] := by
  intro before name after _ _ returned
  obtain ⟨found, rfl⟩ := referenceTarget_returns.mp returned
  refine ⟨Relation.ReflTransGen.single (Step.refer before found), fun other member => ?_⟩
  rw [List.mem_singleton.mp member]
  exact ⟨Data.NameSet.mem_insert.mpr (Or.inl rfl), Or.inr ⟨pointer, found⟩⟩

theorem resolveEnum_cites (literals : List Json) (nullable : Bool) (typeName : String) :
    scope.Cites known (scope.resolveEnum literals nullable typeName) TypeExpr.references := by
  intro before t after sound _ returned
  rw [Returns, runFrom_resolveEnum] at returned
  split at returned
  · cases returned
  · cases returned
    exact ⟨Relation.ReflTransGen.refl, by simp [TypeExpr.references]⟩
  next values _ _ _ =>
    cases returned
    refine ⟨Relation.ReflTransGen.single (Step.request before typeName values),
      fun name member => ?_⟩
    rw [TypeExpr.references, List.mem_singleton] at member
    subst member
    exact ⟨Data.NameSet.mem_insert.mpr (Or.inl rfl),
      Or.inl (EnumTable.synthesize_mem sound typeName values)⟩

/-- Every name in an inline type or in a merged record has a target. -/
theorem supports_cites (scope : Scope) :
    scope.Supports fun known m references => scope.Cites known m references where
  pure _ := Cites.pure
  bind := Cites.bind
  fail e _ := Cites.throw e
  refer := referenceTarget_cites
  request := resolveEnum_cites

/-- A check refers to nothing. -/
theorem flatten_cites (s : Schema) (typeName : String) :
    scope.Cites known (scope.flatten true s typeName) Member.listReferences :=
  (supports_cites scope).flatten (fun _ _ target => Cites.lift (scope.checkInclusion target)) s _

end Scope
end SchemaTypes
