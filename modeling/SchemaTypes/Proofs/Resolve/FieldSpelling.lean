import SchemaTypes.Proofs.Resolve.Seeding
import SchemaTypes.Proofs.Resolve.Simulation

/-!
# Reserved words spell field names only

Two passes over the same schemas, with two sets of reserved words, go through the same states. They
fail alike, or declare the same apart from the names of fields, and then prune the same, since these
names play no part in what a declaration refers to.
-/
namespace SchemaTypes

open Data Naming Resolve ResolveState

/-- The outcome with new names in its declaration. -/
def Outcome.relabel (l : Labels) : Outcome → Outcome
  | .declared d => .declared (d.relabel l)
  | .enum => .enum
  | .vacuous description => .vacuous description

/-! ### Declarations -/

namespace Scope

variable {scope : Scope} {words : ReservedWords} {s : Schema}

/-- The second outcome is the first one with fields named for the reserved words. -/
def Respells (words : ReservedWords) (outcome other : Outcome) : Prop :=
  other = outcome.relabel (.spelled id words)

/-- A state is coupled with itself only, and so all names of enums are the same. -/
theorem coupling_eq (table : SchemaTable) :
    Coupling table (Equiv.refl String) (fun _ => True) Eq where
  fixed _ := rfl
  apply e _ same := congrArg e.apply same
  answers _ same answered := same ▸ answered

/-- With the same state all requests may be made. -/
theorem asks_all (causes : Effect → Prop) : Asks (fun _ => True) causes :=
  fun _ _ _ => trivial

theorem simulates_inclusionRecord (pointer : String) (description : Option String) :
    Simulates Eq (Respells words) (scope.inclusionRecord pointer description)
      ((scope.withWords words).inclusionRecord pointer description) := by
  refine (simulates_referenceTarget (coupling_eq scope.table) pointer).bind fun name name' both => ?_
  obtain ⟨rfl, -⟩ := both
  refine .lift_bind fun _ _ => ?_
  exact .pure rfl

theorem simulates_declareEnum (literals : List Json) (description : Option String) :
    Simulates Eq (Respells words) (scope.declareEnum literals description)
      ((scope.withWords words).declareEnum literals description) := by
  have sameRead : (scope.withWords words).enumLiterals literals = scope.enumLiterals literals :=
    scope.enumLiterals_congr (scope.withWords words) rfl literals
  rw [declareEnum, declareEnum, sameRead]
  refine .lift_bind fun read _ => ?_
  obtain ⟨_ | ⟨v, vs⟩, null⟩ := read
  · exact .pure rfl
  · -- Both declare the same enum, from the same state.
    rintro before _ rfl
    exact ⟨.ok rfl, rfl⟩

theorem simulates_declare (scope : Scope) (words : ReservedWords) (s : Schema) :
    Simulates Eq (Respells words) (scope.declare s) ((scope.withWords words).declare s) := by
  have coupling := coupling_eq scope.table
  have resolves (c : Schema) : scope.Simulated words (Equiv.refl String) (fun _ => True) Eq c :=
    simulates_resolve coupling c
  rw [declare_eq, declare_eq]
  refine .lift_bind fun type _ => ?_
  cases s.shape type with
  | merged =>
    have members : Simulates Eq (Member.TwinLists (Equiv.refl String) scope.reserved words) _ _ :=
      simulates_flatten coupling true s scope.schema (asks_all _)
    refine members.map fun ms ms' lists => ?_
    exact congrArg (fun ms => Outcome.declared (.record _ ms s.summary)) lists.forth.symm
  | union ss =>
    have alternatives := simulates_resolveAlternatives (fun c (_ : c ∈ ss) => resolves c)
      scope.schema 1 (asks_all _) .nil
    refine alternatives.map fun ts ts' lists => ?_
    exact congrArg (fun ts => Outcome.declared (.union _ ts s.summary)) lists.forth.symm
  | fields ps =>
    have fields := simulates_resolveFields (fun p (_ : p ∈ ps) => resolves p.2)
      s.facets.required scope.schema (asks_all _)
    refine fields.map fun ms ms' lists => ?_
    exact congrArg (fun ms => Outcome.declared (.record _ ms s.summary)) lists.forth.symm
  | reference pointer => exact simulates_inclusionRecord pointer s.summary
  | emptyRecord => exact .pure rfl
  | array items =>
    cases items with
    | none => exact .pure rfl
    | some items =>
      have element := resolves items (scope.schema ++ "Item") (asks_all _)
      refine element.map fun t t' twins => ?_
      exact congrArg (fun t => Outcome.declared (.array _ t s.isNullable s.summary))
        twins.forth.symm
  | literals literals => exact simulates_declareEnum literals s.summary
  | scalar kind => exact .pure rfl
  | any =>
    cases stated : s.declaredNullability with
    | none =>
      simp only [outcomeOfShape, stated]
      exact .pure rfl
    | some nullable =>
      simp only [outcomeOfShape, stated]
      exact .pure rfl

end Scope

/-! ### Pruning -/

namespace DeclarationSet

variable {set other : DeclarationSet} {old : List Declaration} {l : Labels} {roots : NameSet}

/-- The references of a name, found in the list of all of them. -/
theorem referencesOf_eq (set : DeclarationSet) (name : String) :
    set.referencesOf name =
      (Entries.get? (set.declarations.map fun d => (d.name, d.references)) name).getD [] := by
  unfold referencesOf declaration?
  induction set.declarations with
  | nil => rfl
  | cons d rest ih =>
    rw [List.map_cons, Entries.get?_cons, List.find?_cons]
    by_cases same : d.name = name
    · simp [same]
    · simp only [beq_false_of_ne same, if_neg same]
      exact ih

/-- What is reached depends on the names of the declarations and on their references only. -/
theorem reachable_congr
    (same : (other.declarations.map fun d => (d.name, d.references)) =
      set.declarations.map fun d => (d.name, d.references)) (names : List String) :
    other.reachable names = set.reachable names := by
  have edges : other.referencesOf = set.referencesOf := by
    funext name
    rw [referencesOf_eq, referencesOf_eq, same]
  have count : other.declarations.length = set.declarations.length := by
    simpa using congrArg List.length same
  rw [reachable, reachable, edges, count]

/-- The declarations of the other set are the old ones, and behind them those of the first set with
new names. All else is the same. -/
structure RelabelsBehind (l : Labels) (old : List Declaration) (set other : DeclarationSet) :
    Prop where
  declarations : ∃ new, set.declarations = old ++ new ∧
    other.declarations = old ++ new.map (Declaration.relabel l)
  enums : other.enums = set.enums
  referenced : other.referenced = set.referenced

/-- Pruning goes by references, so it drops the same declarations from both sets, and none of the
old ones if they are roots. -/
theorem RelabelsBehind.prune (relabels : RelabelsBehind l old set other)
    (kept : ∀ name, l.target name = name) (rooted : ∀ d ∈ old, d.name ∈ roots) :
    RelabelsBehind l old (set.prune roots).1 (other.prune roots).1 := by
  obtain ⟨new, listed, listedOther⟩ := relabels.declarations
  have references (d : Declaration) : (d.relabel l).references = d.references := by
    rw [d.references_relabel l, funext kept]
    exact List.map_id _
  have reached : other.reachable roots.toList = set.reachable roots.toList := by
    refine reachable_congr ?_ _
    rw [listed, listedOther, List.map_append, List.map_append, List.map_map]
    simp [Function.comp_def, references]
  refine ⟨⟨new.filter fun d => (set.reachable roots.toList).contains d.name, ?_, ?_⟩,
    relabels.enums, relabels.referenced⟩
  · rw [DeclarationSet.prune, listed, List.filter_append, filter_reachable_eq_self rooted]
  · rw [DeclarationSet.prune, listedOther, List.filter_append, reached,
      filter_reachable_eq_self rooted, List.filter_map]
    simp [Function.comp_def]

end DeclarationSet

/-! ### Passes -/

namespace Pass

variable {pass : Pass} {words : ReservedWords}

/-- The pass with other reserved words. -/
abbrev withWords (pass : Pass) (words : ReservedWords) : Pass :=
  { pass with reserved := words }

theorem simulates_declareAll (pass : Pass) (words : ReservedWords) (declared : NameSet)
    (schemas : Entries Schema) :
    Simulates Eq (fun os os' => os' = os.map fun o => (o.1, o.2.relabel (.spelled id words)))
      (pass.declareAll declared schemas) ((pass.withWords words).declareAll declared schemas) := by
  induction schemas with
  | nil => exact .pure rfl
  | cons entry rest ih =>
    rw [declareAll, declareAll]
    by_cases known : declared.contains entry.1 = true
    · rw [if_pos known, if_pos known]
      exact ih
    · rw [if_neg known, if_neg known]
      have first := (pass.scope entry.1).simulates_declare words entry.2
      refine first.bind fun outcome other respells => ih.map fun os os' later => ?_
      rw [respells, later]
      rfl

/-- What is left of the outcomes has the new names. -/
theorem filterMap_finish_relabel (l : Labels) (referenced : NameSet)
    (outcomes : List (String × Outcome)) :
    (outcomes.map fun o => (o.1, o.2.relabel l)).filterMap (finish referenced) =
      (outcomes.filterMap (finish referenced)).map (Declaration.relabel l) := by
  rw [List.filterMap_map, List.map_filterMap]
  refine List.filterMap_congr fun o _ => ?_
  obtain ⟨name, d | _ | description⟩ := o
  · rfl
  · rfl
  · by_cases met : referenced.contains name = true
    · simp [finish, Outcome.relabel, Declaration.relabel, met]
    · simp [finish, Outcome.relabel, met]

theorem assembled_relabels (l : Labels) (outcomes : List (String × Outcome))
    (after : ResolveState) :
    DeclarationSet.RelabelsBehind l pass.earlier.declarations (pass.assembled outcomes after)
      (pass.assembled (outcomes.map fun o => (o.1, o.2.relabel l)) after) := by
  have new := filterMap_finish_relabel l after.referenced outcomes
  refine ⟨⟨outcomes.filterMap (finish after.referenced), rfl, ?_⟩, rfl, rfl⟩
  rw [assembled, new]

/-- Runs with two sets of reserved words fail alike, or the sets that they yield are the same, with
fields named for the ones or for the others. -/
theorem run_withWords (pass : Pass) (words : ReservedWords) :
    SameResult (DeclarationSet.RelabelsBehind (.spelled id words) pass.earlier.declarations)
      pass.run (pass.withWords words).run := by
  let other := pass.withWords words
  have simulates := pass.simulates_declareAll words pass.earlier.declaredNames pass.table.schemas
  -- The reserved words play no part in where a run starts and in what pruning keeps.
  obtain ⟨same, states⟩ : SameResult _ (runFrom (pass.declareAll _ _) pass.start).1
      (runFrom (other.declareAll other.earlier.declaredNames other.table.schemas) other.start).1 ∧
      _ = (runFrom (other.declareAll other.earlier.declaredNames other.table.schemas)
        other.start).2 := simulates pass.start pass.start rfl
  rw [pass.run_eq, other.run_eq]
  generalize runFrom (pass.declareAll _ _) _ = first at same states
  generalize runFrom (other.declareAll _ _) _ = second at same states
  obtain ⟨_, after⟩ := first
  obtain ⟨_, _⟩ := second
  obtain rfl : after = _ := states
  cases same with
  | error e => exact .error e
  | @ok outcomes _ relabelled =>
    subst relabelled
    have sets := pass.assembled_relabels (.spelled id words) outcomes after
    have kept (name : String) : (Labels.spelled id words).target name = name := rfl
    have rooted d (old : d ∈ pass.earlier.declarations) : d.name ∈ pass.roots :=
      mem_roots_of_earlier (DeclarationSet.mem_names.mpr (Or.inl ⟨d, old, rfl⟩))
    by_cases pruned : (pass.prune || pass.seed.isSome) = true
    · have prunedOther : (other.prune || other.seed.isSome) = true := pruned
      simp only [if_pos pruned, if_pos prunedOther]
      exact .ok (sets.prune kept rooted)
    · have unprunedOther : ¬ (other.prune || other.seed.isSome) = true := pruned
      simp only [if_neg pruned, if_neg unprunedOther]
      exact .ok sets

end Pass

/-! ### Requests -/

/-- The sets start with the same old declarations. Behind them they are the same too, apart from the
names of fields. -/
structure DeclarationSet.SameUpToFieldNames (old : List Declaration) (set other : DeclarationSet) :
    Prop where
  declarations : ∃ new new', set.declarations = old ++ new ∧ other.declarations = old ++ new' ∧
    new.map Declaration.withoutFieldNames = new'.map Declaration.withoutFieldNames
  enums : set.enums = other.enums
  referenced : set.referenced = other.referenced

theorem DeclarationSet.RelabelsBehind.sameUpToFieldNames {words : ReservedWords}
    {old : List Declaration} {set other : DeclarationSet}
    (relabels : RelabelsBehind (.spelled id words) old set other) :
    SameUpToFieldNames old set other := by
  obtain ⟨new, listed, listedOther⟩ := relabels.declarations
  refine ⟨⟨new, _, listed, listedOther, ?_⟩, relabels.enums.symm, relabels.referenced.symm⟩
  rw [List.map_map]
  refine List.map_congr_left fun d _ => ?_
  -- Other names for the fields leave no trace once the names are taken away.
  have blank : (Labels.spelled id words).andThen .blank = .blank := rfl
  rw [Function.comp_apply, Declaration.withoutFieldNames, Declaration.withoutFieldNames,
    d.relabel_relabel, blank]

namespace Request

variable {r : Request} {pass : Pass}

/-- The pass for a request takes the reserved words as they are. -/
theorem pass_withWords (r : Request) (words : ReservedWords) (seed : Option DeclarationSet) :
    ({ r with reserved := words } : Request).pass seed =
      (r.pass seed).map fun pass => pass.withWords words := by
  unfold Request.pass
  cases Pass.ofSource r.keys r.schema? with
  | error e => rfl
  | ok fresh =>
    cases seed with
    | none => rfl
    | some seed => rfl

/-- With any two sets of reserved words, a build fails with the same error, or it yields sets that
are the same apart from the names of the fields that the pass has declared: the declarations and
their order, their members, the enums and the referenced names, and what is pruned. -/
theorem run_same_up_to_fieldNames (r : Request) (seed : Option DeclarationSet)
    (words words' : ReservedWords) :
    SameResult (DeclarationSet.SameUpToFieldNames (seed.getD .empty).declarations)
      (({ r with reserved := words } : Request).run seed)
      (({ r with reserved := words' } : Request).run seed) := by
  unfold run
  rw [pass_withWords r words, pass_withWords r words']
  cases prepared : r.pass seed with
  | error e => exact .error e
  | ok pass =>
    have earlier : pass.earlier = seed.getD .empty := earlier_of_pass prepared
    have same : SameResult (DeclarationSet.RelabelsBehind (.spelled id words')
        pass.earlier.declarations) (pass.withWords words).run (pass.withWords words').run :=
      (pass.withWords words).run_withWords words'
    rw [earlier] at same
    exact same.mono fun _ _ relabels => relabels.sameUpToFieldNames

end Request
end SchemaTypes
