import SchemaTypes.Proofs.Resolve.Causes
import SchemaTypes.Proofs.Resolve.Chain
import Mathlib.Logic.Relation

/-!
# Repeated resolutions

A resolution that has returned can be repeated at any later point of a run. All of its effects are
settled by then: applied once more, they change nothing, whatever was applied in between. So the
repeated resolution finds the same answers, and returns the same type from them.
-/
namespace SchemaTypes

open Data Naming Resolve ResolveState

/-! ### Settled effects -/

namespace Effect

/-- There is nothing left that the effect would change. -/
def Settled (s : ResolveState) : Effect → Prop
  | refer name => name ∈ s.referenced
  | request q _ => ∃ name, s.enumFor? q = some name ∧ name ∈ s.referenced
  | own name _ _ => name ∈ s.enums.names

variable {s : ResolveState} {e : Effect} {es : List Effect} {name : String}

theorem Settled.apply_eq (settled : e.Settled s) : e.apply s = s := by
  cases e with
  | refer name =>
    have same : s.referenced.insert name = s.referenced := NameSet.insert_of_mem settled
    rw [apply, ResolveState.refer, same]
  | request q values =>
    obtain ⟨name, answered, referenced⟩ := settled
    have same : s.referenced.insert name = s.referenced := NameSet.insert_of_mem referenced
    -- The request was answered, so all that it does is to refer to its enum.
    rw [apply, request_of_known answered, ResolveState.refer, same]
  | own name values description =>
    have same : s.enums.declareOwned name values description = s.enums :=
      EnumTable.declareOwned_known settled description
    rw [apply, same]

theorem mem_referenced_apply (f : Effect) (referred : name ∈ s.referenced) :
    name ∈ (f.apply s).referenced := by
  cases f with
  | refer => exact NameSet.mem_insert.mpr (Or.inr referred)
  | request => exact NameSet.mem_insert.mpr (Or.inr referred)
  | own => exact referred

/-- An effect is settled once it was applied. -/
theorem settled_apply (e : Effect) (s : ResolveState) : e.Settled (e.apply s) := by
  cases e with
  | refer name => exact NameSet.mem_insert.mpr (Or.inl rfl)
  | request q values =>
    have answered := enumFor?_request s q values
    have referenced : (s.enums.synthesize s.taken q values).1 ∈ (s.request q values).referenced :=
      NameSet.mem_insert.mpr (Or.inl rfl)
    exact ⟨_, answered, referenced⟩
  | own name values description => exact EnumTable.declareOwned_mem ..

/-- No effect unsettles another one. -/
theorem Settled.apply (settled : e.Settled s) (f : Effect) : e.Settled (f.apply s) := by
  cases e with
  | refer name => exact mem_referenced_apply f settled
  | request q values =>
    obtain ⟨name, answered, referenced⟩ := settled
    exact ⟨name, enumFor?_apply f answered, mem_referenced_apply f referenced⟩
  | own name values description => exact mem_names_apply f settled

theorem Settled.perform (settled : e.Settled s) (fs : List Effect) : e.Settled (s.perform fs) := by
  induction fs generalizing s with
  | nil => exact settled
  | cons f rest ih => exact ih (settled.apply f)

theorem settled_perform (performed : e ∈ es) : e.Settled (s.perform es) := by
  induction es generalizing s with
  | nil => cases performed
  | cons f rest ih =>
    rcases List.mem_cons.mp performed with rfl | later
    · exact (settled_apply e s).perform rest
    · exact ih later

end Effect

/-- Settled effects leave the state as it is. -/
theorem ResolveState.perform_eq_self {s : ResolveState} {es : List Effect}
    (settled : ∀ e ∈ es, e.Settled s) : s.perform es = s := by
  induction es with
  | nil => rfl
  | cons e rest ih =>
    have first : e.apply s = s := (settled e List.mem_cons_self).apply_eq
    have later : s.perform rest = s := ih fun f member => settled f (List.mem_cons_of_mem _ member)
    rw [perform_cons, first, later]

namespace Uniform

variable {α : Type} {m : Resolve α} {causes : Effect → Prop} {a : α} {before after : ResolveState}

/-- Whether a computation returns or fails, it leaves a state that some effects make. -/
theorem exists_perform (uniform : Uniform (fun _ : Unit => m) causes) (before : ResolveState) :
    ∃ es, (runFrom m before).2 = before.perform es := by
  obtain ⟨es, result, performs, -⟩ := uniform
  exact ⟨es, congrArg Prod.snd ((performs ()).run before)⟩

/-- After its own effects and any others, a computation that has returned returns the same, and
leaves the state as it is. -/
theorem returns_again (uniform : Uniform (fun _ : Unit => m) causes)
    (returned : Returns m before a after) (fs : List Effect) :
    Returns m (after.perform fs) a (after.perform fs) := by
  obtain ⟨es, result, performs, -⟩ := uniform
  cases result with
  | error e => cases ((performs ()).run before).symm.trans returned
  | ok value =>
    have first : (Except.ok (value () (before.perform es).enumFor?), before.perform es) =
        (Except.ok a, after) := ((performs ()).run before).symm.trans returned
    cases first
    have settled : ((before.perform es).perform fs).perform es = (before.perform es).perform fs :=
      perform_eq_self fun e member => (Effect.settled_perform member).perform fs
    -- Each request of the computation has the answer that it had the first time.
    have answers : value () ((before.perform es).perform fs).enumFor? =
        value () (before.perform es).enumFor? := by
      refine (performs ()).answers _ rfl _ _ fun q values asked => ?_
      obtain ⟨name, answered⟩ := exists_enumFor?_perform (s := before) asked
      rw [answered, enumFor?_perform fs answered]
    have again : runFrom m ((before.perform es).perform fs) =
        (Except.ok (value () (((before.perform es).perform fs).perform es).enumFor?),
          ((before.perform es).perform fs).perform es) :=
      (performs ()).run _
    rw [settled, answers] at again
    exact again

end Uniform

/-! ### Calls -/

namespace ResolveState

/-- A call of the resolver over a table, whether it returns or fails: a node is resolved under some
name, or a schema is declared. -/
inductive Call (table : SchemaTable) : ResolveState → ResolveState → Prop
  | resolve {scope : Scope} (s : Schema) (typeName : String) (before : ResolveState) :
    scope.table = table → Call table before (runFrom (scope.resolve s typeName) before).2
  | declare {scope : Scope} (s : Schema) (before : ResolveState) :
    scope.table = table → Call table before (runFrom (scope.declare s) before).2

/-- Any number of calls. -/
abbrev Calls (table : SchemaTable) : ResolveState → ResolveState → Prop :=
  Relation.ReflTransGen (Call table)

variable {table : SchemaTable} {before after : ResolveState}

theorem Call.exists_perform (call : Call table before after) :
    ∃ es, after = before.perform es := by
  cases call with
  | @resolve scope s typeName => exact (Scope.uniform_resolve scope s typeName).exists_perform _
  | @declare scope s => exact (Scope.uniform_declare scope s).exists_perform _

theorem Calls.exists_perform (calls : Calls table before after) :
    ∃ es, after = before.perform es := by
  induction calls with
  | refl => exact ⟨[], rfl⟩
  | tail _ call ih =>
    obtain ⟨es, rfl⟩ := ih
    obtain ⟨fs, rfl⟩ := call.exists_perform
    exact ⟨es ++ fs, (perform_append _ es fs).symm⟩

end ResolveState

/-- Once a node was resolved under a name, it resolves to the same type under this name, with the
same enums, however many calls are made in between and whether they fail or not. The repeated call
leaves the enums, the names in use and the referenced names as they are. -/
theorem Scope.resolve_again {scope : Scope} {s : Schema} {typeName : String} {t : TypeExpr}
    {before after later : ResolveState}
    (returned : Returns (scope.resolve s typeName) before t after)
    (calls : Calls scope.table after later) :
    Returns (scope.resolve s typeName) later t later := by
  obtain ⟨es, rfl⟩ := calls.exists_perform
  exact (Scope.uniform_resolve scope s typeName).returns_again returned es

/-! ### A shelter

A dog has two coats with different literals under the same name, which is that of a schema too. The
second coat is dropped, since the first one counts. -/

namespace Shelter

open Zoo

def coat : Schema :=
  .node { type := some "string", literals := [.text "short", .text "long"] } none none [] [] []

def wiry : Schema :=
  .node { type := some "string", literals := [.text "wiry"] } none none [] [] []

def dog : Schema :=
  allOf [object [("coat", coat), ("home", pointer "Kennel")], object [("coat", wiry)]]

/-- The size is asked for before the owner is looked for, who is not there. -/
def stray : Schema :=
  object [("size", coat), ("owner", pointer "Nobody")]

def shelter : Scope where
  table := {
    schemas := [("DogCoat", coat), ("Kennel", object [])]
    names := [("DogCoat", "DogCoat"), ("Kennel", "Kennel")] }
  reserved := {}
  schema := "Shelter"

def start : ResolveState :=
  { taken := ⟨["DogCoat", "Kennel"]⟩ }

def dogType : TypeExpr :=
  .record [.field "coat" "coat" (.reference "DogCoat1" false) false none,
    .field "home" "home" (.reference "Kennel" false) false none] false

/-- The state after a call for the node. -/
def called (node : Schema) (typeName : String) (before : ResolveState) : ResolveState :=
  (runFrom (shelter.resolve node typeName) before).2

theorem dog_returns :
    Returns (shelter.resolve dog "Dog") start dogType (called dog "Dog" start) :=
  Prod.ext (eq_ok_of_toOption (by decide +kernel)) rfl

theorem call_called (node : Schema) (typeName : String) (before : ResolveState) :
    Call shelter.table before (called node typeName before) :=
  .resolve node typeName before rfl

end Shelter

open Shelter in
/-- In between, a coat is asked for under the name of the dog's, and a stray is refused. -/
theorem Scope.dog_resolves_again :
    let after := called dog "Dog" start
    let later := called stray "Dog" (called coat "DogCoat1" after)
    Returns (shelter.resolve dog "Dog") start dogType after ∧
    Calls shelter.table after later ∧
    after.enums.names = ["DogCoat1"] ∧ later.enums.names = ["DogCoat1", "DogCoat11", "DogSize"] ∧
    Returns (shelter.resolve dog "Dog") later dogType later := by
  intro after later
  have calls : Calls shelter.table after later :=
    (Relation.ReflTransGen.single (call_called coat "DogCoat1" after)).tail (call_called stray "Dog" _)
  exact ⟨dog_returns, calls, by decide +kernel, by decide +kernel, resolve_again dog_returns calls⟩

end SchemaTypes
