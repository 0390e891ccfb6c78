import SchemaTypes.Proofs.Resolve.Seeding

/-!
# A pass over its own output changes nothing

Without pruning, a pass declares every schema except those without a shape that nothing refers to.
Seeded with the result, a second pass over the same schemas skips whatever is declared, and those
that are left come to nothing again.
-/
namespace SchemaTypes

open Data Resolve ResolveState DeclarationSet

/-- Declaring a schema without a shape comes to nothing, from any state. -/
theorem Scope.runFrom_declare_of_isShapeless {s : Schema} (shapeless : s.isShapeless = true)
    (scope : Scope) (before : ResolveState) :
    runFrom (scope.declare s) before = (.ok (.vacuous s.summary), before) := by
  simp only [Schema.isShapeless, Bool.and_eq_true, Bool.not_eq_true', Option.isNone_iff_eq_none]
    at shapeless
  obtain ⟨⟨⟨⟨plain, noProperties⟩, untyped⟩, noReference⟩, silent⟩ := shapeless
  -- Without a type the node has any shape, and that is silent about null.
  have type : scope.nodeType s.facets = .ok none := by simp only [nodeType, untyped]
  have shape : s.shape none = .any := by
    rw [Schema.shape_eq_ofType plain noProperties, Shape.ofType, noReference]
  rw [declare_eq, type, runFrom_bind, runFrom_lift]
  simp only [shape, outcomeOfShape, silent, runFrom_pure]

namespace Pass

variable {pass : Pass} {set : DeclarationSet} {declared : NameSet} {schemas : Entries Schema}

/-- Where only schemas without a shape are left, nothing is declared and no state is changed. -/
theorem runFrom_declareAll_of_isShapeless (pass : Pass)
    (left : ∀ e ∈ schemas, e.1 ∉ declared → e.2.isShapeless = true) (s : ResolveState) :
    ∃ outcomes, runFrom (pass.declareAll declared schemas) s = (.ok outcomes, s) ∧
      ∀ o ∈ outcomes, ∃ e ∈ schemas, e.1 ∉ declared ∧ o = (e.1, .vacuous e.2.summary) := by
  induction schemas with
  | nil => exact ⟨[], rfl, by simp⟩
  | cons e rest ih =>
    obtain ⟨outcomes, ran, vacuous⟩ := ih fun e member => left e (List.mem_cons_of_mem _ member)
    have listed o (member : o ∈ outcomes) :
        ∃ f ∈ e :: rest, f.1 ∉ declared ∧ o = (f.1, .vacuous f.2.summary) := by
      obtain ⟨f, later, unknown, same⟩ := vacuous o member
      exact ⟨f, List.mem_cons_of_mem _ later, unknown, same⟩
    rw [declareAll]
    split
    next => exact ⟨outcomes, ran, listed⟩
    next new =>
      have unknown : e.1 ∉ declared := mt NameSet.contains_iff.mpr new
      have nothing := Scope.runFrom_declare_of_isShapeless (left e List.mem_cons_self unknown)
      refine ⟨(e.1, .vacuous e.2.summary) :: outcomes, ?_, ?_⟩
      · simp only [runFrom_bind, nothing, ran, runFrom_pure]
      · exact List.forall_mem_cons.mpr ⟨⟨e, List.mem_cons_self, unknown, rfl⟩, listed⟩

theorem declaresAll_of_unpruned (first : pass.seed = none) (unpruned : pass.prune = false)
    (finished : pass.run = .ok set) :
    ∃ outcomes after,
      pass.DeclaresAll pass.earlier.declaredNames pass.table.schemas pass.start outcomes after ∧
        set = pass.assembled outcomes after := by
  rw [run_eq] at finished
  split at finished
  · cases finished
  next outcomes after returned =>
    rw [unpruned, first] at finished
    exact ⟨outcomes, after, declaresAll_of_returns returned, (Except.ok.inj finished).symm⟩

/-- What a first pass without pruning leaves out has no shape, and nothing refers to it. -/
theorem left_out (fits : pass.table.Fits pass.taken) (first : pass.seed = none)
    (unpruned : pass.prune = false) (finished : pass.run = .ok set) :
    ∀ e ∈ pass.table.schemas, e.1 ∉ set.names →
      e.1 ∉ set.referenced ∧ e.2.isShapeless = true := by
  obtain ⟨outcomes, after, run, rfl⟩ := declaresAll_of_unpruned first unpruned finished
  intro e member new
  have missing := mt (mem_names_iff fits run member).mpr new
  simp only [not_or, Bool.not_eq_false] at missing
  exact missing.2

/-- The second pass starts with the set, declares nothing, and has all names of the set as roots. -/
theorem run_eq_earlier (valid : pass.earlier.Valid)
    (left : ∀ e ∈ pass.table.schemas, e.1 ∉ pass.earlier.names →
      e.1 ∉ pass.earlier.referenced ∧ e.2.isShapeless = true) : pass.run = .ok pass.earlier := by
  have undeclared {name : String} (unknown : name ∉ pass.earlier.declaredNames) :
      name ∉ pass.earlier.names :=
    mt NameSet.mem_ofList.mpr unknown
  obtain ⟨outcomes, ran, vacuous⟩ := pass.runFrom_declareAll_of_isShapeless
    (fun e member unknown => (left e member (undeclared unknown)).2) pass.start
  -- The state is that of the start, so nothing more is referred to than before.
  have nothing : outcomes.filterMap (finish pass.earlier.referenced) = [] := by
    refine List.filterMap_eq_nil_iff.mpr fun o member => ?_
    obtain ⟨e, listed, unknown, rfl⟩ := vacuous o member
    have unmet := (left e listed (undeclared unknown)).1
    simp [finish, mt NameSet.contains_iff.mp unmet]
  have same : pass.assembled outcomes pass.start = pass.earlier := by
    rw [assembled, start_declarations valid]
    change ⟨_ ++ outcomes.filterMap (finish pass.earlier.referenced), _, _⟩ = pass.earlier
    rw [nothing, List.append_nil]
    rfl
  rw [run_eq, ran]
  simp only [same, prune_eq_self fun _ => mem_roots_of_earlier, ite_self]

end Pass

/-! ### Requests -/

namespace Request

variable {r : Request} {set : DeclarationSet}

theorem seed_prune_of_pass_none {pass : Pass} (prepared : r.pass none = .ok pass) :
    pass.seed = none ∧ pass.prune = r.prune := by
  obtain ⟨fresh, built, last⟩ := bind_eq_ok.mp prepared
  have noSeed : fresh.seed = none := Pass.ofSource_seed built
  cases last
  exact ⟨noSeed, rfl⟩

/-- With other names to keep and with or without pruning, the seeded pass is the first one over
again. -/
theorem pass_some_of_none {pass : Pass} (prepared : r.pass none = .ok pass) (set : DeclarationSet)
    (retained : List String) (prune : Bool) :
    ∃ names, ({ r with retained, prune }).pass (some set) =
      .ok (({ pass with retained := names, prune } : Pass).seedWith set) := by
  obtain ⟨fresh, built, last⟩ := bind_eq_ok.mp prepared
  cases last
  exact ⟨_, bind_eq_ok.mpr ⟨fresh, built, rfl⟩⟩

/-- A second pass over the same schemas, seeded with what a first one without pruning has yielded,
yields the same set, whatever it is asked to keep. -/
theorem run_seeded_self (r : Request) (unpruned : r.prune = false) (finished : r.run none = .ok set)
    (retained : List String) (prune : Bool) :
    ({ r with retained, prune }).run (some set) = .ok set := by
  have valid := run_valid (by simp) finished
  obtain ⟨pass, prepared, last⟩ := bind_eq_ok.mp finished
  obtain ⟨noSeed, asked⟩ := seed_prune_of_pass_none prepared
  have left := Pass.left_out (pass_fits prepared) noSeed (asked.trans unpruned) last
  obtain ⟨names, again⟩ := pass_some_of_none prepared set retained prune
  exact bind_eq_ok.mpr ⟨_, again, Pass.run_eq_earlier valid left⟩

end Request

/-! ### A garden without a gardener

Two keys have the same name, a schema has an enum that takes the name of another schema, and one
schema has no shape and nothing refers to it. -/

namespace Garden

open Zoo

def request : Request :=
  .ofDocument <| document [("bed", object [("state", status)]), ("Bed", pointer "bed"),
    ("BedState", status), ("Gardener", .empty)]

def set : DeclarationSet where
  declarations := [
    .record "Bed" [.field "state" "state" (.reference "BedState1" false) false none] none,
    .record "Bed1" [.inclusion "Bed"] none]
  enums := [
    .ofLiterals "BedState1" ["open", "closed"] none, .ofLiterals "BedState" ["open", "closed"] none]
  referenced := .ofList ["Bed", "BedState1"]

theorem run : request.run none = .ok set :=
  eq_ok_of_toOption (by decide +kernel)

end Garden

theorem Request.garden_run_again : Garden.request.prune = false ∧
    Garden.request.run none = .ok Garden.set ∧
    ({ Garden.request with retained := ["Gardener"], prune := true }).run (some Garden.set) =
      .ok Garden.set :=
  ⟨rfl, Garden.run, Garden.request.run_seeded_self rfl Garden.run ["Gardener"] true⟩

end SchemaTypes
