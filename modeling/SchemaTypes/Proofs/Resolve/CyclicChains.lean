import SchemaTypes.Proofs.Resolve.AcceptedDocuments

/-!
# Reported chains

The chain of a cyclic inclusion leads from a schema back to itself along edges. Each step is an
inclusion of the record before it, unless merging passes over the reference that the edge is for:
then the record includes no such thing.
-/
namespace SchemaTypes

open Data Naming Resolve

/-! ### Where chains come from -/

theorem SchemaTable.nameKeys_ne_cyclic (keys : List String) (taken : NameTable)
    (chain : List String) : nameKeys keys taken ≠ .error (.cyclicInclusion chain) := by
  intro failed
  induction keys generalizing taken with
  | nil => cases failed
  | cons key rest ih =>
    rw [nameKeys] at failed
    split at failed
    · cases failed
    next base _ =>
      rcases bind_eq_error.mp failed with later | ⟨named, -, done⟩
      · exact ih _ later
      · cases done

theorem SchemaTable.select_ne_cyclic (schema? : String → Option Schema) (keys chain : List String) :
    select schema? keys ≠ .error (.cyclicInclusion chain) := by
  intro failed
  induction keys with
  | nil => cases failed
  | cons key rest ih =>
    rw [select] at failed
    split at failed
    · cases failed
    next schema _ =>
      rcases bind_eq_error.mp failed with later | ⟨entries, -, done⟩
      · exact ih later
      · cases done

namespace Pass

variable {pass : Pass} {declared : NameSet} {schemas : Entries Schema} {e : Error}
  {before after : ResolveState}

/-- The error of a pass is that of one of its declarations. -/
theorem exists_declare_of_error
    (failed : runFrom (pass.declareAll declared schemas) before = (.error e, after)) :
    ∃ p ∈ schemas, ∃ s t, runFrom ((pass.scope p.1).declare p.2) s = (.error e, t) := by
  induction schemas generalizing before with
  | nil => cases failed
  | cons p rest ih =>
    rw [declareAll] at failed
    split at failed
    next =>
      obtain ⟨q, member, found⟩ := ih failed
      exact ⟨q, List.mem_cons_of_mem _ member, found⟩
    next =>
      rcases runFrom_bind_eq_error.mp failed with here | ⟨outcome, mid, -, more⟩
      · exact ⟨p, List.mem_cons_self, before, after, here⟩
      · rcases runFrom_bind_eq_error.mp more with later | ⟨outcomes, final, -, done⟩
        · obtain ⟨q, member, found⟩ := ih later
          exact ⟨q, List.mem_cons_of_mem _ member, found⟩
        · cases done

theorem ofSource_ne_cyclic (keys : List String) (schema? : String → Option Schema)
    (chain : List String) : ofSource keys schema? ≠ .error (.cyclicInclusion chain) := by
  intro failed
  rcases bind_eq_error.mp failed with selecting | ⟨entries, -, rest⟩
  · exact SchemaTable.select_ne_cyclic schema? keys chain selecting
  · rcases bind_eq_error.mp rest with building | ⟨built, -, done⟩
    · rcases bind_eq_error.mp building with naming | ⟨named, -, done⟩
      · exact SchemaTable.nameKeys_ne_cyclic _ _ chain naming
      · cases done
    · cases done

end Pass

/-- A cyclic inclusion is found while a schema is declared. -/
theorem Request.exists_declare_of_cyclic {r : Request} {chain : List String}
    (failed : r.run none = .error (.cyclicInclusion chain)) :
    ∃ pass, r.pass none = .ok pass ∧ ∃ p ∈ pass.table.schemas, ∃ before after,
      runFrom ((pass.scope p.1).declare p.2) before = (.error (.cyclicInclusion chain), after) := by
  rcases bind_eq_error.mp failed with preparing | ⟨pass, prepared, running⟩
  · rcases bind_eq_error.mp preparing with building | ⟨fresh, -, done⟩
    · exact absurd building (Pass.ofSource_ne_cyclic _ _ chain)
    · cases done
  · refine ⟨pass, prepared, ?_⟩
    rw [Pass.run_eq] at running
    split at running
    next e after declaring =>
      cases running
      exact Pass.exists_declare_of_error declaring
    · split at running <;> cases running

/-! ### Steps of a chain -/

namespace Pass

/-- The second schema stands in the record of the first one, or merging the first one passes over a
reference to it. -/
inductive ChainStep (pass : Pass) (first second : String) : Prop
  | included {s : Schema} : pass.table.get? first = some s → pass.table.Embeds s second →
    (∀ ms, (pass.scope first).RecordOf s ms → .inclusion second ∈ ms) →
    ChainStep pass first second
  | passedOver {s : Schema} : pass.table.get? first = some s → pass.table.Hides s second →
    ChainStep pass first second

variable {pass : Pass} {name target : String} {s : Schema}

theorem chainStep_of_embeds (found : pass.table.get? name = some s)
    (embeds : pass.table.Embeds s target) : pass.ChainStep name target :=
  .included found embeds fun _ record => record.mem_iff.mpr embeds

theorem chainStep_of_edge (edge : target ∈ pass.table.inclusionEdges name) :
    pass.ChainStep name target := by
  obtain ⟨s, found, embeds | hides⟩ := SchemaTable.mem_inclusionEdges_iff.mp edge
  · exact chainStep_of_embeds found embeds
  · exact .passedOver found hides

end Pass

namespace Request

variable {r : Request} {chain : List String}

/-- The chain of a cyclic inclusion starts and ends with the schema that is being declared. Its
first step is an inclusion, and so is each of the others where merging passes over nothing. -/
theorem cyclic_chain (failed : r.run none = .error (.cyclicInclusion chain)) :
    ∃ pass name s target, r.pass none = .ok pass ∧ pass.table.get? name = some s ∧
      (∃ before after, runFrom ((pass.scope name).declare s) before =
        (.error (.cyclicInclusion chain), after)) ∧
      chain.head? = some name ∧ chain.getLast? = some name ∧
      chain[1]? = some target ∧ pass.table.Embeds s target ∧
      chain.IsChain pass.ChainStep := by
  obtain ⟨pass, prepared, ⟨name, s⟩, member, before, after, declaring⟩ :=
    exists_declare_of_cyclic failed
  have found : pass.table.get? name = some s :=
    Entries.get?_of_mem (pass_fits prepared).distinct member
  -- The check was that of an inclusion in the record of the schema itself.
  obtain ⟨target, path, embeds, back, rfl⟩ := (Scope.checks_declare _ s).stops declaring
  obtain ⟨head, last, edges⟩ := isPath_of_searchPath back
  cases path with
  | nil => cases head
  | cons first rest =>
    obtain rfl : first = target := Option.some.inj head
    refine ⟨pass, name, s, first, prepared, found, ⟨before, after, declaring⟩, rfl, ?_, rfl, embeds,
      ?_⟩
    · rwa [List.getLast?_cons_cons]
    · have steps := edges.imp fun _ _ => Pass.chainStep_of_edge
      exact List.isChain_cons_cons.mpr ⟨Pass.chainStep_of_embeds found embeds, steps⟩

end Request

/-! ### Cats and animals

In both documents the record of a cat includes that of an animal. In the first one an animal
includes a cat as well, while in the second one it refers to a cat beside an `allOf` of its own, and
has a field only.
-/

/-- The chain that a result reports. -/
def reportedChain? {α : Type} : Except Error α → Option (List String)
  | .error (.cyclicInclusion chain) => some chain
  | _ => none

theorem eq_error_of_reportedChain? {α : Type} {result : Except Error α} {chain : List String}
    (reported : reportedChain? result = some chain) :
    result = .error (.cyclicInclusion chain) := by
  unfold reportedChain? at reported
  split at reported
  · cases reported
    rfl
  · cases reported

namespace Cat

open Zoo (pointer scalar object allOf)

def looping : Document :=
  Zoo.document [("Cat", allOf [pointer "Animal"]), ("Animal", allOf [pointer "Cat"])]

def animal : Schema :=
  allOf [.node { reference := some (Document.Pointer.toSchema "Cat") } none none
    [object [("id", scalar "integer")]] [] []]

def composed : Document :=
  Zoo.document [("Cat", allOf [pointer "Animal"]), ("Animal", animal)]

def chain : List String := ["Cat", "Animal", "Cat"]

theorem run_looping : (Request.ofDocument looping).run none = .error (.cyclicInclusion chain) :=
  eq_error_of_reportedChain? (by decide +kernel)

theorem run_composed : (Request.ofDocument composed).run none = .error (.cyclicInclusion chain) :=
  eq_error_of_reportedChain? (by decide +kernel)

def composedPass : Pass :=
  ((Request.ofDocument composed).pass none).toOption.getD default

theorem pass_composed : (Request.ofDocument composed).pass none = .ok composedPass := by
  have built : ((Request.ofDocument composed).pass none).toOption.isSome = true := by
    decide +kernel
  unfold composedPass
  cases found : (Request.ofDocument composed).pass none with
  | error e =>
    rw [found] at built
    cases built
  | ok pass => rfl

/-- The animal that refers to a cat beside its `allOf` has a field only. -/
theorem exists_recordOf_animal : ∃ s, composedPass.table.get? "Animal" = some s ∧
    (composedPass.scope "Animal").RecordOf s
      [.field "id" "id" (.scalar .int false) false none] := by
  have there : (composedPass.table.get? "Animal").isSome = true := by decide +kernel
  obtain ⟨s, found⟩ := Option.isSome_iff_exists.mp there
  have evaluated : ((composedPass.table.get? "Animal").map fun s =>
      (runFrom ((composedPass.scope "Animal").resolve s "Animal") {}).1.toOption) =
      some (some (.record [.field "id" "id" (.scalar .int false) false none] false)) := by
    decide +kernel
  rw [found, Option.map_some, Option.some.injEq] at evaluated
  exact ⟨s, found, .record (Prod.ext (eq_ok_of_toOption evaluated) rfl)⟩

end Cat

theorem looping_chain :
    (Request.ofDocument Cat.looping).run none = .error (.cyclicInclusion Cat.chain) ∧
      ∃ pass s, (Request.ofDocument Cat.looping).pass none = .ok pass ∧
        pass.table.get? "Cat" = some s ∧ pass.table.Embeds s "Animal" ∧
        pass.ChainStep "Animal" "Cat" := by
  obtain ⟨pass, name, s, target, prepared, found, -, head, -, second, embeds, steps⟩ :=
    Request.cyclic_chain Cat.run_looping
  obtain rfl : "Cat" = name := Option.some.inj head
  obtain rfl : "Animal" = target := Option.some.inj second
  exact ⟨Cat.run_looping, pass, s, prepared, found, embeds, steps.tail.rel⟩

/-- A chain can go through a record that includes nothing. -/
theorem not_always_included_in_chain : ¬ ∀ (d : Document) (pass : Pass) (chain : List String),
    (Request.ofDocument d).pass none = .ok pass →
    (Request.ofDocument d).run none = .error (.cyclicInclusion chain) →
    chain.IsChain fun first second => ∀ s ms, pass.table.get? first = some s →
      (pass.scope first).RecordOf s ms → .inclusion second ∈ ms := by
  intro always
  have steps := always Cat.composed Cat.composedPass Cat.chain Cat.pass_composed Cat.run_composed
  obtain ⟨s, found, record⟩ := Cat.exists_recordOf_animal
  obtain ⟨-, last⟩ := List.isChain_cons_cons.mp steps
  exact absurd ((List.isChain_cons_cons.mp last).1 s _ found record) (by decide)

end SchemaTypes
