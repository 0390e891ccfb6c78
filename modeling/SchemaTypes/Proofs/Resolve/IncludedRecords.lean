import SchemaTypes.Proofs.Resolve.Chain
import SchemaTypes.Proofs.Resolve.Declared

/-!
# What records include

An inclusion leads to a schema of the table, whatever that is declared as. It names a record exactly
if that schema has the parts of one.
-/
namespace SchemaTypes

open Data DeclarationSet

namespace Pass

variable {pass : Pass} {set : DeclarationSet} {members : List Member} {target : String}

/-- The targets of inclusions are schemas of the table. -/
theorem exists_schema_of_included (fits : pass.table.Fits pass.taken) {name : String} {c : Schema}
    (body : (pass.scope name).Body c members) (included : .inclusion target ∈ members) :
    ∃ schema, (target, schema) ∈ pass.table.schemas := by
  rcases body.mem included with ⟨pointer, _, designated, same⟩ | ⟨_, _, _, _, _, _, _, _, _, same⟩
  · cases same
    exact Entries.mem_keys.mp (fits.mem_of_resolvePointer designated)
  · cases same

/-- With nothing declared before, what is included is a record exactly if its schema has the parts
of one. -/
theorem included_record_iff (ready : pass.Ready) (first : pass.earlier = .empty)
    (finished : pass.run = .ok set) (body : set.HasBody members)
    (included : .inclusion target ∈ members) :
    ∃ schema, pass.table.get? target = some schema ∧
      ((∃ ms description, .record target ms description ∈ set.declarations) ↔
        schema.isRecord = true) := by
  have unknown : target ∉ pass.earlier.names := by
    rw [first]
    exact List.not_mem_nil
  have valid := run_valid ready finished
  obtain ⟨name, _, _, c, _, made⟩ := exists_body_of_run ready.fits first finished body
  obtain ⟨schema, entry⟩ := exists_schema_of_included ready.fits made included
  refine ⟨schema, Entries.get?_of_mem ready.fits.distinct entry, ?_⟩
  obtain ⟨outcomes, after, run, last⟩ := declaresAll_of_run finished
  -- Pruned or not, the set keeps what has the name of a target.
  have kept (d : Declaration) (named : d.name = target) :
      d ∈ set.declarations ↔ d ∈ (pass.assembled outcomes after).declarations := by
    rcases last with ⟨rfl, -⟩ | rfl
    · exact Iff.rfl
    · obtain ⟨holder, listed, inside⟩ := body
      have present := valid.closed holder listed target (inside.mentions included)
      have distinct := (assembled_valid ready run).distinct
      exact ⟨fun inside => (mem_prune_declarations.mp inside).1,
        fun member => mem_prune_of_mem_names distinct member (named ▸ present)⟩
  rw [← mem_record_iff ready.fits run entry unknown]
  exact exists_congr fun ms => exists_congr fun description => kept _ rfl

end Pass

/-! ### First passes -/

namespace Request

variable {r : Request} {pass : Pass} {set : DeclarationSet} {members : List Member}
  {target : String}

/-- What a record of a first pass includes, at any depth, is a record exactly if its schema has the
parts of one. -/
theorem included_is_record_iff (prepared : r.pass none = .ok pass) (finished : pass.run = .ok set)
    (body : set.HasBody members) (included : .inclusion target ∈ members) :
    ∃ schema, pass.table.get? target = some schema ∧
      ((∃ ms description, .record target ms description ∈ set.declarations) ↔
        schema.isRecord = true) :=
  Pass.included_record_iff (pass_ready (by simp) prepared) (earlier_of_pass prepared) finished
    body included

end Request

/-! ### A person with a name and an identity

One of the two is a string, and the other a record. The person includes both of them.
-/

namespace Person

def document : Document :=
  Zoo.document [
    ("Name", Zoo.scalar "string"),
    ("Entity", Zoo.object [("id", Zoo.scalar "integer")]),
    ("Person", Zoo.allOf [Zoo.pointer "Name", Zoo.pointer "Entity"])]

def members : List Member := [.inclusion "Name", .inclusion "Entity"]

def set : DeclarationSet where
  declarations := [
    .scalar "Name" .string false none,
    .record "Entity" [.field "id" "id" (.scalar .int false) false none] none,
    .record "Person" members none]
  enums := []
  referenced := .ofList ["Name", "Entity"]

theorem run_document : (Request.ofDocument document).run none = .ok set :=
  eq_ok_of_toOption (by decide +kernel)

theorem hasBody_members : set.HasBody members :=
  ⟨_, List.mem_of_getElem? (i := 2) rfl, .own "Person" members none⟩

end Person

theorem person_included_iff : ∃ pass, (Request.ofDocument Person.document).pass none = .ok pass ∧
    pass.run = .ok Person.set ∧ Person.set.HasBody Person.members ∧
    .inclusion "Entity" ∈ Person.members ∧
    ∃ schema, pass.table.get? "Entity" = some schema ∧
      ((∃ ms description, .record "Entity" ms description ∈ Person.set.declarations) ↔
        schema.isRecord = true) := by
  obtain ⟨pass, prepared, finished⟩ := bind_eq_ok.mp Person.run_document
  have included : .inclusion "Entity" ∈ Person.members := by decide
  exact ⟨pass, prepared, finished, Person.hasBody_members, included,
    Request.included_is_record_iff prepared finished Person.hasBody_members included⟩

/-- The name of a person is included without being a record. -/
theorem not_always_included_record : ¬ ∀ (d : Document) (set : DeclarationSet)
    (members : List Member) (target : String), (Request.ofDocument d).run none = .ok set →
      set.HasBody members → .inclusion target ∈ members →
      ∃ ms description, .record target ms description ∈ set.declarations := by
  intro always
  obtain ⟨ms, description, declared⟩ :=
    always Person.document Person.set Person.members "Name" Person.run_document
      Person.hasBody_members (by decide)
  simp [Person.set] at declared

end SchemaTypes
