import SchemaTypes.Proofs.Resolve.Causes
import SchemaTypes.Proofs.Resolve.Idempotence

/-!
# Enums of a pass that is seeded with its own output

Pruning drops declarations but no enums, and a second pass over the same schemas declares again what
was dropped. A seed keeps the name of each enum, but not the request that it was made for. So a
request finds its enum again exactly if the enum has the requested name; where the first pass had to
number it, the second one makes another enum, or finds the one that took the name.
-/
namespace SchemaTypes

open Data Naming Resolve ResolveState DeclarationSet

namespace Pass

variable {pass again : Pass} {first second : DeclarationSet} {declared : NameSet}
  {schemas : Entries Schema} {q name : String}

/-- The state that a run leaves. -/
def final (pass : Pass) : ResolveState :=
  (runFrom (pass.declareAll pass.earlier.declaredNames pass.table.schemas) pass.start).2

/-- The name of the enum that the pass answers a request with, if there was one. -/
def enumFor? (pass : Pass) (q : String) : Option String :=
  pass.final.enumFor? q

/-- The declaration of a schema that is not in the set asks for an enum of the name. -/
def Requests (pass : Pass) (set : DeclarationSet) (q : String) : Prop :=
  ∃ p ∈ pass.table.schemas, p.1 ∉ set.names ∧
    ∃ values, (pass.scope p.1).DeclarationCauses p.2 (.request q values)

/-! ### Effects of a pass -/

theorem uniform_declareAll (pass : Pass) (declared : NameSet) (schemas : Entries Schema) :
    Uniform (fun _ : Unit => pass.declareAll declared schemas) fun e =>
      ∃ p ∈ schemas, p.1 ∉ declared ∧ (pass.scope p.1).DeclarationCauses p.2 e := by
  induction schemas with
  | nil => exact (Uniform.pure fun _ => []).congr (by simp)
  | cons p rest ih =>
    rw [declareAll]
    split
    next known =>
      have skipped : p.1 ∈ declared := NameSet.contains_iff.mp known
      exact ih.congr fun e => by simp [skipped]
    next new =>
      have unknown : p.1 ∉ declared := mt NameSet.contains_iff.mpr new
      refine ((Scope.uniform_declare (pass.scope p.1) p.2).bind
        ((ih.comp fun _ => ()).bind (.pure _))).congr fun e => ?_
      simp [unknown]

/-- Where each schema that is left can be declared from some state, all of them can from any. -/
theorem exists_returns_declareAll
    (each : ∀ p ∈ schemas, p.1 ∉ declared →
      ∃ s outcome t, Returns ((pass.scope p.1).declare p.2) s outcome t) (before : ResolveState) :
    ∃ outcomes after, Returns (pass.declareAll declared schemas) before outcomes after := by
  induction schemas generalizing before with
  | nil => exact ⟨[], before, rfl⟩
  | cons p rest ih =>
    have later := ih fun q member => each q (List.mem_cons_of_mem _ member)
    rw [declareAll]
    split
    next => exact later before
    next new =>
      obtain ⟨s, outcome, t, returned⟩ :=
        each p List.mem_cons_self (mt NameSet.contains_iff.mpr new)
      obtain ⟨es, -, returns⟩ := (Scope.uniform_declare _ _).returns returned
      obtain ⟨outcome, here⟩ := returns before
      obtain ⟨outcomes, after, rest⟩ := later (before.perform es)
      exact ⟨(p.1, outcome) :: outcomes, after, returns_bind.mpr ⟨outcome, _, here,
        returns_bind.mpr ⟨outcomes, after, rest, rfl⟩⟩⟩

section Run

variable {outcomes : List (String × Outcome)} {after : ResolveState}

/-- Pruning keeps the enums, so they are those of the last state. -/
theorem returns_of_run (finished : pass.run = .ok first) :
    first.enums = pass.final.enums.declarations ∧
      ∃ outcomes, Returns (pass.declareAll pass.earlier.declaredNames pass.table.schemas) pass.start
        outcomes pass.final := by
  rw [run_eq] at finished
  unfold final
  split at finished
  · cases finished
  next outcomes after returned =>
    rw [returned]
    refine ⟨?_, outcomes, returned⟩
    split at finished <;> cases finished <;> rfl

theorem enum_names_of_run (fits : pass.table.Fits pass.taken) (finished : pass.run = .ok first) :
    pass.final.Sound ∧ first.enums.map EnumDeclaration.name = pass.final.enums.names := by
  obtain ⟨enums, outcomes, returned⟩ := returns_of_run finished
  have sound := (sound_grows fits (declaresAll_of_returns returned)).1
  exact ⟨sound, by rw [enums, sound.declarations_names]⟩

/-- A request is answered with an enum of the set. -/
theorem mem_enums_of_enumFor? (fits : pass.table.Fits pass.taken) (finished : pass.run = .ok first)
    (answered : pass.enumFor? q = some name) : name ∈ first.enums.map EnumDeclaration.name := by
  obtain ⟨sound, names⟩ := enum_names_of_run fits finished
  rw [names]
  exact sound.answered _ (Entries.mem_of_get? answered)

theorem start_enumFor? (pass : Pass) (q : String) :
    pass.start.enumFor? q =
      if q ∈ pass.earlier.enums.map EnumDeclaration.name then some q else none :=
  EnumTable.get?_aliases_seeded pass.taken q

section Returned

variable (returned : Returns (pass.declareAll pass.earlier.declaredNames pass.table.schemas)
  pass.start outcomes after)
include returned

theorem exists_run_of_returns : ∃ set, pass.run = .ok set := by
  have finished : pass.run =
      if pass.prune || pass.seed.isSome then
        .ok ((pass.assembled outcomes after).prune pass.roots).1
      else .ok (pass.assembled outcomes after) := by
    rw [run_eq, returned]
  rw [finished]
  split <;> exact ⟨_, rfl⟩

/-- A run has the effects of the schemas that are not declared before. -/
theorem exists_effects :
    ∃ es, pass.final = pass.start.perform es ∧
      ∀ e, e ∈ es ↔ ∃ p ∈ pass.table.schemas, p.1 ∉ pass.earlier.names ∧
        (pass.scope p.1).DeclarationCauses p.2 e := by
  obtain ⟨es, listed, returns⟩ := (pass.uniform_declareAll _ _).returns returned
  obtain ⟨others, same⟩ := returns pass.start
  refine ⟨es, by rw [final, same], fun e => (listed e).trans ?_⟩
  simp only [declaredNames, NameSet.mem_ofList]

end Returned

/-- A request is answered with the enum of that very name, if there was one before, or else with a
free variant of the name. -/
theorem answer_of_run (finished : pass.run = .ok first) (asked : pass.Requests pass.earlier q) :
    q ∈ pass.earlier.enums.map EnumDeclaration.name ∧ pass.enumFor? q = some q ∨
      q ∉ pass.earlier.enums.map EnumDeclaration.name ∧ ∃ n, pass.enumFor? q = some n ∧
        n ∉ pass.start.taken.taken ∧ NameTable.IsVariant q n := by
  obtain ⟨-, outcomes, returned⟩ := returns_of_run finished
  obtain ⟨es, final, listed⟩ := exists_effects returned
  obtain ⟨p, member, unknown, values, causes⟩ := asked
  have effect := (listed _).mpr ⟨p, member, unknown, causes⟩
  have start := pass.start_enumFor? q
  rw [enumFor?, final]
  by_cases known : q ∈ pass.earlier.enums.map EnumDeclaration.name
  · rw [if_pos known] at start
    exact Or.inl ⟨known, enumFor?_perform es start⟩
  · rw [if_neg known] at start
    obtain ⟨n, answered⟩ := exists_enumFor?_perform (s := pass.start) effect
    refine Or.inr ⟨known, n, answered, ?_⟩
    refine (enumFor?_perform_cases es answered).resolve_left fun early => ?_
    rw [start] at early
    cases early

end Run

/-! ### Two passes -/

/-- The second pass has the schemas of the first one, whose set is its seed. -/
structure Reseeds (pass again : Pass) (first : DeclarationSet) : Prop where
  ready : pass.Ready
  seedless : pass.earlier = .empty
  finished : pass.run = .ok first
  table : again.table = pass.table
  reserved : again.reserved = pass.reserved
  readyAgain : again.Ready
  seeded : again.earlier = first

namespace Reseeds

variable (reseeds : Reseeds pass again first)
include reseeds

theorem scope_eq (name : String) : again.scope name = pass.scope name := by
  rw [scope, scope, reseeds.table, reseeds.reserved]

theorem not_earlier (name : String) : name ∉ pass.earlier.names :=
  reseeds.seedless ▸ List.not_mem_nil

/-- The first pass declares the enum of a schema, and pruning does not drop it. -/
theorem not_own {p : String × Schema} (member : p ∈ pass.table.schemas)
    (dropped : p.1 ∉ first.names) {values : List String} {description : Option String} :
    ¬ (pass.scope p.1).DeclarationCauses p.2 (.own name values description) := by
  intro causes
  obtain ⟨-, outcomes, returned⟩ := returns_of_run reseeds.finished
  obtain ⟨es, final, listed⟩ := exists_effects returned
  have effect := (listed _).mpr ⟨p, member, reseeds.not_earlier p.1, causes⟩
  have owned : name ∈ pass.final.enums.names := final ▸ mem_names_perform_of_own effect
  rw [causes.own_eq, ← (enum_names_of_run reseeds.ready.fits reseeds.finished).2] at owned
  exact dropped (List.mem_append_right _ owned)

theorem exists_run_again : ∃ second, again.run = .ok second := by
  obtain ⟨-, outcomes, returned⟩ := returns_of_run reseeds.finished
  -- The first pass has declared each schema, in a state of its own.
  have each : ∀ p ∈ again.table.schemas, p.1 ∉ again.earlier.declaredNames →
      ∃ s outcome t, Returns ((again.scope p.1).declare p.2) s outcome t := by
    intro p member _
    obtain ⟨outcome, before, mid, -, declared⟩ := exists_outcome reseeds.ready.fits
      (declaresAll_of_returns returned) (reseeds.table ▸ member) (reseeds.not_earlier p.1)
    exact ⟨before, outcome, mid, reseeds.scope_eq p.1 ▸ declared⟩
  obtain ⟨outcomes, after, again⟩ := exists_returns_declareAll each again.start
  exact exists_run_of_returns again

/-- The second pass asks for the enums that the dropped schemas ask for, and declares no others. -/
theorem exists_requests (finished : again.run = .ok second) :
    ∃ es, again.final = again.start.perform es ∧
      (∀ name values description, .own name values description ∉ es) ∧
      ∀ q, pass.Requests first q ↔ ∃ values, .request q values ∈ es := by
  obtain ⟨-, outcomes, returned⟩ := returns_of_run finished
  obtain ⟨es, final, listed⟩ := exists_effects returned
  simp only [reseeds.table, reseeds.scope_eq, reseeds.seeded] at listed
  refine ⟨es, final, fun name values description owned => ?_, fun q => ?_⟩
  · obtain ⟨p, member, dropped, causes⟩ := (listed _).mp owned
    exact reseeds.not_own member dropped causes
  · constructor
    · rintro ⟨p, member, dropped, values, causes⟩
      exact ⟨values, (listed _).mpr ⟨p, member, dropped, causes⟩⟩
    · rintro ⟨values, asked⟩
      obtain ⟨p, member, dropped, causes⟩ := (listed _).mp asked
      exact ⟨p, member, dropped, values, causes⟩

theorem requests_iff : again.Requests again.earlier q ↔ pass.Requests first q := by
  simp only [Requests, reseeds.table, reseeds.scope_eq, reseeds.seeded]

/-- A request is answered with the enum of that very name, or else with a new one. -/
theorem answer_cases (finished : again.run = .ok second) (asked : pass.Requests first q) :
    q ∈ first.enums.map EnumDeclaration.name ∧ again.enumFor? q = some q ∨
      q ∉ first.enums.map EnumDeclaration.name ∧ ∃ n, again.enumFor? q = some n ∧
        n ∉ first.enums.map EnumDeclaration.name ∧
        n ∈ second.enums.map EnumDeclaration.name := by
  have answer := answer_of_run finished (reseeds.requests_iff.mpr asked)
  rw [reseeds.seeded] at answer
  refine answer.imp_right ?_
  rintro ⟨unknown, n, answered, free, -⟩
  refine ⟨unknown, n, answered, fun old => ?_, ?_⟩
  · -- The names of the seed are taken when the second pass starts.
    have earlier : n ∈ again.earlier.names := reseeds.seeded ▸ List.mem_append_right _ old
    exact free (start_taken again (reseeds.readyAgain.reserved n earlier))
  · exact mem_enums_of_enumFor? reseeds.readyAgain.fits finished answered

theorem enums_eq_iff (finished : again.run = .ok second) :
    second.enums = first.enums ↔
      ∀ q, pass.Requests first q → q ∈ first.enums.map EnumDeclaration.name := by
  constructor
  · intro same q asked
    rcases reseeds.answer_cases finished asked with ⟨known, -⟩ | ⟨-, n, -, new, declared⟩
    · exact known
    · exact absurd (same ▸ declared) new
  · intro known
    obtain ⟨es, final, noneOwned, requests⟩ := reseeds.exists_requests finished
    -- Every request finds its answer in the table that the seed has filled.
    have same : again.final.enums = again.start.enums := by
      rw [final]
      refine enums_perform_of_known (fun q values listed => ⟨q, ?_⟩) noneOwned
      rw [start_enumFor?, reseeds.seeded, if_pos (known q ((requests q).mpr ⟨values, listed⟩))]
    rw [(returns_of_run finished).1, same, start_declarations reseeds.readyAgain.valid,
      reseeds.seeded]

theorem enumFor?_eq_iff (finished : again.run = .ok second) (asked : pass.Requests first q) :
    again.enumFor? q = pass.enumFor? q ↔ pass.enumFor? q = some q := by
  have declared n (answered : pass.enumFor? q = some n) :
      n ∈ first.enums.map EnumDeclaration.name :=
    mem_enums_of_enumFor? reseeds.ready.fits reseeds.finished answered
  rcases reseeds.answer_cases finished asked with ⟨-, answered⟩ | ⟨unknown, n, answered, new, -⟩
  · rw [answered, eq_comm]
  · -- Neither the new enum nor one of the very name is an enum of the first pass.
    rw [answered]
    exact iff_of_false (fun same => new (declared n same.symm)) fun same =>
      unknown (declared q same)

end Reseeds

end Pass

/-! ### Requests -/

/-- Let a first pass, pruned or not, yield `first`. A second pass for the same request, seeded with
`first`, does not fail. It adds no enum exactly if the dropped schemas ask only for names that enums
of `first` have; and it answers a request as the first pass did exactly if that answer is an enum of
the very name that was asked for. -/
theorem Request.reseeded_enums (r : Request) {first : DeclarationSet}
    (finished : r.run none = .ok first) :
    ∃ pass again second, r.pass none = .ok pass ∧ r.pass (some first) = .ok again ∧
      again.run = .ok second ∧
      (second.enums = first.enums ↔
        ∀ q, pass.Requests first q → q ∈ first.enums.map EnumDeclaration.name) ∧
      ∀ q, pass.Requests first q →
        (again.enumFor? q = pass.enumFor? q ↔ pass.enumFor? q = some q) := by
  have valid := run_valid (by simp) finished
  obtain ⟨pass, prepared, last⟩ := bind_eq_ok.mp finished
  obtain ⟨names, prepareAgain⟩ := pass_some_of_none prepared first r.retained r.prune
  have readyAgain := pass_ready (fun s member => Option.mem_some.mp member ▸ valid) prepareAgain
  let again := ({ pass with retained := names, prune := r.prune } : Pass).seedWith first
  have reseeds : Pass.Reseeds pass again first :=
    ⟨pass_ready (by simp) prepared, earlier_of_pass prepared, last, rfl, rfl, readyAgain, rfl⟩
  obtain ⟨second, ran⟩ := reseeds.exists_run_again
  exact ⟨pass, again, second, prepared, prepareAgain, ran, reseeds.enums_eq_iff ran,
    fun q => reseeds.enumFor?_eq_iff ran⟩

/-! ### A clinic that forgets its pets

The tags of a pet are numbered, since a schema has their name. Only that schema is retained. -/

namespace Clinic

open Zoo

def request : Request :=
  { Request.ofDocument (document [
      ("Pet", object [("tag", status)]),
      ("PetTag", object [("label", scalar "string")])]) with
    retained := ["PetTag"], prune := true }

def first : DeclarationSet where
  declarations := [
    .record "PetTag" [.field "label" "label" (.scalar .string false) false none] none]
  enums := [.ofLiterals "PetTag1" ["open", "closed"] none]
  referenced := .ofList ["PetTag1"]

/-- The second pass numbers the tags again. -/
def second : DeclarationSet where
  declarations := first.declarations
  enums := first.enums ++ [.ofLiterals "PetTag2" ["open", "closed"] none]
  referenced := .ofList ["PetTag1", "PetTag2"]

theorem first_run : request.run none = .ok first :=
  eq_ok_of_toOption (by decide +kernel)

theorem second_run : request.run (some first) = .ok second :=
  eq_ok_of_toOption (by decide +kernel)

end Clinic

theorem Request.clinic_reseeded_enums : Clinic.request.run none = .ok Clinic.first ∧
    ∃ pass again second, Clinic.request.pass none = .ok pass ∧
      Clinic.request.pass (some Clinic.first) = .ok again ∧ again.run = .ok second ∧
      (second.enums = Clinic.first.enums ↔
        ∀ q, pass.Requests Clinic.first q → q ∈ ["PetTag1"]) ∧
      ∀ q, pass.Requests Clinic.first q →
        (again.enumFor? q = pass.enumFor? q ↔ pass.enumFor? q = some q) :=
  ⟨Clinic.first_run, Clinic.request.reseeded_enums Clinic.first_run⟩

theorem Request.not_always_reseeded_enums :
    ¬ ∀ (r : Request) (first second : DeclarationSet), r.prune = true →
      r.run none = .ok first → r.run (some first) = .ok second → second.enums = first.enums := by
  intro always
  have same := always Clinic.request _ _ rfl Clinic.first_run Clinic.second_run
  exact absurd same (by decide)

end SchemaTypes
