import SchemaTypes.Proofs.Resolve.Repetition
import SchemaTypes.Proofs.Resolve.Simulation
import Mathlib.Logic.Equiv.Basic

/-!
# The state decides on the names of enums only

In the states of a run, different requests are answered with different enums, and none of these has
the name of a schema. So between two states there is a permutation that leads from the answers in
the one to the answers in the other and moves no schema. Resolution does not tell the two states
apart otherwise, even though the alternatives of a union are compared with their references.
-/
namespace SchemaTypes

open Data Naming Resolve ResolveState

/-! ### Permutations -/

/-- A permutation that leads from the one names to the others and leaves all else where it has to
stay. -/
theorem exists_perm {ι α : Type} [DecidableEq α] {f g : ι → α} {fixed : α → Prop} (qs : List ι)
    (injective : ∀ q ∈ qs, ∀ r ∈ qs, f q = f r → q = r)
    (injective' : ∀ q ∈ qs, ∀ r ∈ qs, g q = g r → q = r)
    (free : ∀ q ∈ qs, ¬ fixed (f q)) (free' : ∀ q ∈ qs, ¬ fixed (g q)) :
    ∃ σ : Equiv.Perm α, (∀ a, fixed a → σ a = a) ∧ ∀ q ∈ qs, σ (f q) = g q := by
  induction qs with
  | nil => exact ⟨Equiv.refl α, fun _ _ => rfl, by simp⟩
  | cons q rest ih =>
    obtain ⟨σ, kept, leads⟩ := ih
      (fun a inA b inB => injective a (List.mem_cons_of_mem _ inA) b (List.mem_cons_of_mem _ inB))
      (fun a inA b inB => injective' a (List.mem_cons_of_mem _ inA) b (List.mem_cons_of_mem _ inB))
      (fun a inA => free a (List.mem_cons_of_mem _ inA))
      (fun a inA => free' a (List.mem_cons_of_mem _ inA))
    by_cases known : q ∈ rest
    · exact ⟨σ, kept, by simpa [leads q known] using leads⟩
    -- What `q` leads to so far changes places with what it has to lead to.
    refine ⟨σ.trans (Equiv.swap (σ (f q)) (g q)), fun a isFixed => ?_, fun r member => ?_⟩
    · have stays : σ a = a := kept a isFixed
      have notFirst : a ≠ σ (f q) := by
        intro same
        have equal : a = f q := σ.injective (stays.trans same)
        exact free q List.mem_cons_self (equal ▸ isFixed)
      have notSecond : a ≠ g q := by
        intro same
        exact free' q List.mem_cons_self (same ▸ isFixed)
      rw [Equiv.trans_apply, stays, Equiv.swap_apply_of_ne_of_ne notFirst notSecond]
    · rcases List.mem_cons.mp member with rfl | later
      · rw [Equiv.trans_apply, Equiv.swap_apply_left]
      · have leadsTo : σ (f r) = g r := leads r later
        have different : r ≠ q := by
          rintro rfl
          exact known later
        have notFirst : g r ≠ σ (f q) := by
          intro same
          have equal : f r = f q := σ.injective (leadsTo.trans same)
          exact different (injective r member q List.mem_cons_self equal)
        have notSecond : g r ≠ g q :=
          fun same => different (injective' r member q List.mem_cons_self same)
        rw [Equiv.trans_apply, leadsTo, Equiv.swap_apply_of_ne_of_ne notFirst notSecond]

/-! ### States of a run -/

namespace ResolveState

/-- The states that calls over the table lead to. In the first one the names of the table are in
use, and no enum is declared. -/
inductive Reachable (table : SchemaTable) : ResolveState → Prop
  | fresh {taken : NameTable} (referenced : NameSet) : table.Fits taken →
    Reachable table { taken, referenced }
  | call {before after : ResolveState} : Reachable table before → Call table before after →
    Reachable table after

/-- The enums that answer requests are told apart from each other and from the schemas. -/
structure Apart (table : SchemaTable) (s : ResolveState) : Prop where
  held : ∀ name ∈ Entries.keys table.schemas, name ∈ s.taken.taken
  used : ∀ {q name}, s.enumFor? q = some name → name ∈ s.taken.taken
  foreign : ∀ {q name}, s.enumFor? q = some name → name ∉ Entries.keys table.schemas
  injective : ∀ {q r name}, s.enumFor? q = some name → s.enumFor? r = some name → q = r

variable {table : SchemaTable} {s t : ResolveState} {q name : String} {e : Effect}

/-- Only a request can give a new answer, and only to itself. -/
theorem exists_request_of_new (answered : (e.apply s).enumFor? q = some name)
    (new : s.enumFor? q = none) : ∃ values, e = .request q values := by
  cases e with
  | refer =>
    have old : s.enumFor? q = some name := answered
    rw [new] at old
    cases old
  | request other values =>
    by_cases same : other = q
    · exact ⟨values, by rw [same]⟩
    · rw [Effect.apply, enumFor?_request_of_ne same, new] at answered
      cases answered
  | own =>
    rw [enumFor?_own, new] at answered
    cases answered

/-- The name of a new enum is in use from then on. -/
theorem mem_taken_request {values : List String} (new : s.enumFor? q = none)
    (answered : (s.request q values).enumFor? q = some name) :
    name ∈ (s.request q values).taken.taken := by
  have unknown : Entries.get? s.enums.aliases q = none := new
  rw [enumFor?_request] at answered
  simp only [EnumTable.synthesize, unknown, Option.some.injEq] at answered
  simp only [request, EnumTable.synthesize, unknown]
  exact NameTable.mem_claim.mpr (Or.inl answered.symm)

/-- An answer stood before the effect, or the effect is the request and the answer was free. -/
theorem answer_cases (answered : (e.apply s).enumFor? q = some name) :
    s.enumFor? q = some name ∨
      (name ∉ s.taken.taken ∧ s.enumFor? q = none ∧ ∃ values, e = .request q values) := by
  cases known : s.enumFor? q with
  | some other =>
    have kept := enumFor?_apply e known
    exact Or.inl (kept.symm.trans answered)
  | none =>
    have request := exists_request_of_new answered known
    rcases enumFor?_apply_cases e answered with old | ⟨free, -⟩
    · rw [known] at old
      cases old
    · exact Or.inr ⟨free, rfl, request⟩

namespace Apart

/-- Every effect keeps the enums apart. -/
theorem apply (apart : Apart table s) (e : Effect) : Apart table (e.apply s) where
  held name member := mem_taken_apply e (apart.held name member)
  used := by
    intro q name answered
    rcases answer_cases answered with old | ⟨-, new, values, rfl⟩
    · exact mem_taken_apply e (apart.used old)
    · exact mem_taken_request new answered
  foreign := by
    intro q name answered
    rcases answer_cases answered with old | ⟨free, -, -⟩
    · exact apart.foreign old
    · -- The names of schemas are in use, and a new enum gets one that is not.
      exact fun member => free (apart.held name member)
  injective := by
    intro q r name answered answered'
    rcases answer_cases answered with old | ⟨free, -, values, request⟩
    · rcases answer_cases answered' with old' | ⟨free', -⟩
      · exact apart.injective old old'
      · exact absurd (apart.used old) free'
    · rcases answer_cases answered' with old' | ⟨-, -, values', request'⟩
      · exact absurd (apart.used old') free
      · -- Both answers are new, so both requests are the one that was made.
        cases request.symm.trans request'
        rfl

theorem perform (apart : Apart table s) (es : List Effect) : Apart table (s.perform es) := by
  induction es generalizing s with
  | nil => exact apart
  | cons e rest ih => exact ih (apart.apply e)

/-- Two states answer the same requests with names that a permutation leads to each other, which
moves no schema. -/
theorem exists_renaming (first : Apart table s) (second : Apart table t) (qs : List String)
    (answered : ∀ q ∈ qs, ∃ name, s.enumFor? q = some name)
    (answered' : ∀ q ∈ qs, ∃ name, t.enumFor? q = some name) :
    ∃ σ : Equiv.Perm String, (∀ name ∈ Entries.keys table.schemas, σ name = name) ∧
      ∀ q ∈ qs, ∃ name, s.enumFor? q = some name ∧ t.enumFor? q = some (σ name) := by
  let answer (u : ResolveState) (q : String) : String := (u.enumFor? q).getD ""
  have found {u : ResolveState} {q : String} (given : ∃ name, u.enumFor? q = some name) :
      u.enumFor? q = some (answer u q) := by
    obtain ⟨name, given⟩ := given
    simp only [answer, given, Option.getD_some]
  have apart {u : ResolveState} (apart : Apart table u)
      (given : ∀ q ∈ qs, ∃ name, u.enumFor? q = some name) :
      ∀ q ∈ qs, ∀ r ∈ qs, answer u q = answer u r → q = r := by
    intro q inQ r inR same
    exact apart.injective (found (given q inQ)) (same ▸ found (given r inR))
  obtain ⟨σ, kept, leads⟩ := exists_perm qs (apart first answered) (apart second answered')
    (fun q member => first.foreign (found (answered q member)))
    (fun q member => second.foreign (found (answered' q member)))
  refine ⟨σ, kept, fun q member => ⟨answer s q, found (answered q member), ?_⟩⟩
  rw [leads q member]
  exact found (answered' q member)

end Apart

namespace Reachable

theorem fits (reachable : Reachable table s) : ∃ taken, table.Fits taken := by
  induction reachable with
  | fresh _ fits => exact ⟨_, fits⟩
  | call _ _ ih => exact ih

theorem apart (reachable : Reachable table s) : Apart table s := by
  induction reachable with
  | fresh _ fits => exact ⟨fits.held, nofun, nofun, nofun⟩
  | call _ call ih =>
    obtain ⟨es, rfl⟩ := call.exists_perform
    exact ih.perform es

end Reachable

end ResolveState

/-! ### Resolution from two states -/

/-- The second type is the first one with other names for enums: no name of a schema is changed, and
different names stay different. -/
def SchemaTable.RenamesEnums (table : SchemaTable) (t u : TypeExpr) : Prop :=
  ∃ σ : Equiv.Perm String, (∀ name ∈ Entries.keys table.schemas, σ name = name) ∧ u = t.rename σ

/-- From two states, a computation fails with one error, or it returns with the same effects. -/
theorem Uniform.cases_of_states {α : Type} {m : Resolve α} {causes : Effect → Prop}
    (uniform : Uniform (fun _ : Unit => m) causes) (s t : ResolveState) :
    (∃ e, (runFrom m s).1 = .error e ∧ (runFrom m t).1 = .error e) ∨
      ∃ es a b, (∀ e, e ∈ es ↔ causes e) ∧ Returns m s a (s.perform es) ∧
        Returns m t b (t.perform es) := by
  obtain ⟨es, result, performs, listed⟩ := uniform
  have first := (performs ()).run s
  have second := (performs ()).run t
  cases result with
  | error e => exact Or.inl ⟨e, congrArg Prod.fst first, congrArg Prod.fst second⟩
  | ok value => exact Or.inr ⟨es, _, _, listed value rfl, first, second⟩

/-- States are coupled by the answers that they have to the requests asked for. -/
theorem coupling_of_answers {table : SchemaTable} {taken : NameTable} {σ : Equiv.Perm String}
    (fits : table.Fits taken) (kept : ∀ name ∈ Entries.keys table.schemas, σ name = name)
    (asked : String → Prop) :
    Coupling table σ asked fun s t => ∀ q, asked q →
      ∃ name, s.enumFor? q = some name ∧ t.enumFor? q = some (σ name) where
  fixed found := kept _ (fits.mem_of_resolvePointer found)
  apply e _ together q isAsked := by
    obtain ⟨name, first, second⟩ := together q isAsked
    exact ⟨name, enumFor?_apply e first, enumFor?_apply e second⟩
  answers isAsked together answered := by
    obtain ⟨name, first, second⟩ := together _ isAsked
    rw [first] at answered
    cases answered
    exact second

/-- The name that an effect asks for. -/
def Effect.asksFor : Effect → Option String
  | .request q _ => some q
  | .refer _ | .own .. => none

theorem exists_enumFor?_of_asked {es : List Effect} {q : String} (s : ResolveState)
    (asked : q ∈ es.filterMap Effect.asksFor) :
    ∃ name, (s.perform es).enumFor? q = some name := by
  obtain ⟨e, performed, asks⟩ := List.mem_filterMap.mp asked
  cases e with
  | request other values =>
    cases asks
    exact exists_enumFor?_perform performed
  | refer | own => cases asks

/-- From any two states of runs over the same table, a node fails to resolve with the same error, or
it resolves to types that are the same up to a renaming of the enums. -/
theorem Scope.resolve_independent (scope : Scope) (s : Schema) (typeName : String)
    {before other : ResolveState} (reachable : Reachable scope.table before)
    (reachableOther : Reachable scope.table other) :
    SameResult scope.table.RenamesEnums (runFrom (scope.resolve s typeName) before).1
      (runFrom (scope.resolve s typeName) other).1 := by
  have uniform := scope.uniform_resolve s typeName
  rcases uniform.cases_of_states before other with
    ⟨e, failed, failedOther⟩ | ⟨es, t, u, listed, returned, returnedOther⟩
  · rw [failed, failedOther]
    exact .error e
  · let asked (q : String) : Prop := q ∈ es.filterMap Effect.asksFor
    have asks : Asks asked (scope.Causes s typeName) := by
      intro q values causes
      exact List.mem_filterMap.mpr ⟨.request q values, (listed _).mpr causes, rfl⟩
    -- The requests of the node are answered in both of the states that it leaves.
    obtain ⟨σ, kept, leads⟩ := (reachable.apart.perform es).exists_renaming
      (reachableOther.apart.perform es) (es.filterMap Effect.asksFor)
      (fun q => exists_enumFor?_of_asked before) (fun q => exists_enumFor?_of_asked other)
    -- From there it resolves to the same types again, and now no answer is a new one.
    have again : Returns (scope.resolve s typeName) (before.perform es) t (before.perform es) :=
      uniform.returns_again returned []
    have againOther : Returns (scope.resolve s typeName) (other.perform es) u (other.perform es) :=
      uniform.returns_again returnedOther []
    obtain ⟨taken, fits⟩ := reachable.fits
    have simulated : Simulates _ (TypeExpr.Twins σ scope.reserved scope.reserved)
        (scope.resolve s typeName) (scope.resolve s typeName) :=
      simulates_resolve (coupling_of_answers fits kept asked) s typeName asks
    have twins := simulated.of_returns leads again againOther
    have renames : scope.table.RenamesEnums t u := ⟨σ, kept, twins.eq_rename⟩
    rw [Returns] at returned returnedOther
    rw [returned, returnedOther]
    exact .ok renames

/-! ### Another shelter

Before the dog comes, a coat is asked for under the name that the dog's coat would get, and a stray
is refused. -/

namespace Shelter

def other : ResolveState :=
  called stray "Dog" (called coat "DogCoat1" start)

theorem start_reachable : Reachable shelter.table start :=
  .fresh .empty ⟨by decide, by decide, by decide⟩

theorem other_reachable : Reachable shelter.table other :=
  .call (.call start_reachable (call_called ..)) (call_called ..)

end Shelter

open Shelter in
theorem Scope.dog_resolves_independently :
    Reachable shelter.table start ∧ Reachable shelter.table other ∧
    (runFrom (shelter.resolve dog "Dog") start).1 = .ok dogType ∧
    (runFrom (shelter.resolve dog "Dog") other).1 =
      .ok (.record [.field "coat" "coat" (.reference "DogCoat2" false) false none,
        .field "home" "home" (.reference "Kennel" false) false none] false) ∧
    SameResult shelter.table.RenamesEnums (runFrom (shelter.resolve dog "Dog") start).1
      (runFrom (shelter.resolve dog "Dog") other).1 :=
  ⟨start_reachable, other_reachable, congrArg Prod.fst dog_returns,
    eq_ok_of_toOption (by decide +kernel),
    shelter.resolve_independent dog "Dog" start_reachable other_reachable⟩

end SchemaTypes
