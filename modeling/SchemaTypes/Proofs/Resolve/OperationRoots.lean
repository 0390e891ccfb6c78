import SchemaTypes.Proofs.Document.Operations
import SchemaTypes.Proofs.Resolve.Chain
import SchemaTypes.Proofs.Resolve.Declared
import SchemaTypes.Proofs.Resolve.Redirect

/-!
# What operations refer to

A pass that retains the references of operations loses none of their schemas to pruning. A schema
without a shape is declared only where another schema refers to it, and no operation counts as one.
-/
namespace SchemaTypes

open Data Document DeclarationSet

namespace Pass

variable {pass : Pass} {set : DeclarationSet} {name : String} {schema : Schema}

/-- Pruned or not, a pass has a retained schema if it has a shape, or something refers to it, or it
was declared before. -/
theorem mem_names_iff_of_retained (fits : pass.table.Fits pass.taken)
    (finished : pass.run = .ok set) (retained : name ∈ pass.retained)
    (entry : (name, schema) ∈ pass.table.schemas) :
    name ∈ set.names ↔
      name ∈ pass.earlier.names ∨ name ∈ set.referenced ∨ schema.isShapeless = false := by
  obtain ⟨outcomes, after, run, last⟩ := declaresAll_of_run finished
  have assembled_iff := mem_names_iff fits run entry
  rcases last with ⟨rfl, -⟩ | rfl
  · exact assembled_iff
  · have root : name ∈ pass.roots := NameSet.mem_insertMany.mpr (Or.inr retained)
    exact (mem_prune_names_of_root root).trans assembled_iff

end Pass

namespace Request

/-- A request for a document that retains what its operations refer to, and other names. -/
def ofOperations (d : Document) (reserved : Naming.ReservedWords) (others : List String)
    (prune : Bool) : Request :=
  { Request.ofDocument d with
    reserved := reserved
    retained := d.operationReferences ++ others
    prune := prune }

variable {r : Request} {d : Document} {reserved : Naming.ReservedWords} {others : List String}
  {prune : Bool} {seed : Option DeclarationSet} {pass : Pass} {set : DeclarationSet}
  {s c : Schema} {pointer key name : String}

/-- A retained key stands for its name. -/
theorem mem_retained_of_pass (prepared : r.pass seed = .ok pass) (asked : key ∈ r.retained) :
    (pass.table.nameOf? key).getD key ∈ pass.retained := by
  obtain ⟨fresh, -, prepares⟩ := exists_fresh prepared
  rw [prepares.retained, prepares.table]
  exact NameSet.mem_insertMany.mpr (Or.inl (List.mem_map_of_mem asked))

/-- A pointer under whose key the document has a schema designates one in the table. -/
theorem exists_designated (prepared : (ofOperations d reserved others prune).pass seed = .ok pass)
    (present : (d.schemaAt pointer).isSome = true) :
    ∃ name, pass.table.resolvePointer (SchemaTable.redirect pass.table.names pointer) =
      some name := by
  obtain ⟨fresh, built, prepares⟩ := exists_fresh prepared
  obtain ⟨source, found⟩ := Option.isSome_iff_exists.mp present
  obtain ⟨key, named, listed⟩ := Option.bind_eq_some_iff.mp found
  obtain ⟨name, given⟩ :=
    Pass.exists_nameOf built (Entries.mem_keys.mpr ⟨source, Entries.mem_of_get? listed⟩)
  have identifiers := Pass.ofSource_identifiers built
  rw [← prepares.table] at given identifiers
  exact ⟨name, SchemaTable.resolvePointer_redirect (pass_fits prepared) identifiers named given⟩

/-- What a pointer of an operation designates is among the schemas, and retained. -/
theorem retained_of_designated
    (prepared : (ofOperations d reserved others prune).pass seed = .ok pass) (inPath : d.InPath s)
    (contained : s.Contains c) (refers : c.facets.reference = some pointer)
    (designated : pass.table.resolvePointer (SchemaTable.redirect pass.table.names pointer) =
      some name) :
    name ∈ pass.retained ∧ ∃ schema, (name, schema) ∈ pass.table.schemas := by
  have fits := pass_fits prepared
  obtain ⟨fresh, built, prepares⟩ := exists_fresh prepared
  have identifiers := Pass.ofSource_identifiers built
  rw [← prepares.table] at identifiers
  refine ⟨?_, Entries.mem_keys.mp (fits.mem_of_resolvePointer designated)⟩
  -- The operation's key was retained, and so was its name, which is what the pointer designates.
  obtain ⟨key, named, same⟩ := SchemaTable.exists_key_of_redirect fits identifiers designated
  have asked : key ∈ d.operationReferences :=
    mem_operationReferences.mpr ⟨s, inPath, c, contained, pointer, refers, named⟩
  have retained := mem_retained_of_pass prepared (List.mem_append_left others asked)
  rwa [same] at retained

/-- A pointer designates a schema of the table if the document has one under its key. What a pointer
in a schema of an operation designates is there after the pass, under the name that the pointer has
in a component, if it was declared before, or something refers to it, or it has a shape, and not
otherwise. -/
theorem operation_target_declared_iff
    (prepared : (ofOperations d reserved others prune).pass seed = .ok pass) :
    (∀ pointer, (d.schemaAt pointer).isSome = true → ∃ name,
      pass.table.resolvePointer (SchemaTable.redirect pass.table.names pointer) = some name) ∧
    ∀ s c pointer name, d.InPath s → s.Contains c → c.facets.reference = some pointer →
      pass.table.resolvePointer (SchemaTable.redirect pass.table.names pointer) = some name →
      ∃ schema, pass.table.get? name = some schema ∧ ∀ set, pass.run = .ok set →
        (name ∈ set.names ↔ name ∈ (seed.getD .empty).names ∨ name ∈ set.referenced ∨
          schema.isShapeless = false) := by
  refine ⟨fun pointer => exists_designated prepared, ?_⟩
  intro s c pointer name inPath contained refers designated
  obtain ⟨retained, schema, entry⟩ :=
    retained_of_designated prepared inPath contained refers designated
  have fits := pass_fits prepared
  refine ⟨schema, Entries.get?_of_mem fits.distinct entry, fun set finished => ?_⟩
  rw [← earlier_of_pass prepared]
  exact Pass.mem_names_iff_of_retained fits finished retained entry

end Request

/-! ### A kennel

One operation lists the dogs, whose key is not the first of its name, and takes a payload that the
document only describes.
-/

namespace Kennel

def dog : Schema :=
  Zoo.pointer "guard-dog"

def dogs : Schema :=
  .node { type := some "array" } none (some dog) [] [] []

def payload : Schema :=
  Zoo.pointer "Payload"

def list : Operation where
  id := some "list"
  parameters := []
  requestBody := some ⟨[("application/json", ⟨some payload⟩)], true⟩
  responses := [("200", ⟨none, [("application/json", ⟨some dogs⟩)]⟩)]

def document : Document where
  version := "3.0.3"
  info := default
  paths := [("/dogs", { (default : PathItem) with post := some list })]
  components := some [
    ("GuardDog", Zoo.object [("name", Zoo.scalar "string")]),
    ("guard-dog", Zoo.object [("age", Zoo.scalar "integer")]),
    ("Payload", .node { description := some "Anything" } none none [] [] [])]

def request : Request :=
  .ofOperations document {} [] true

def set : DeclarationSet where
  declarations := [
    .record "GuardDog1" [.field "age" "age" (.scalar .int false) false none] none]
  enums := []
  referenced := .empty

theorem run_request : request.run none = .ok set :=
  eq_ok_of_toOption (by decide +kernel)

theorem inPath_dogs : document.InPath dogs :=
  .operation List.mem_cons_self (Or.inr (Or.inl rfl))
    (.response List.mem_cons_self ⟨_, List.mem_cons_self, rfl⟩)

theorem inPath_payload : document.InPath payload :=
  .operation List.mem_cons_self (Or.inr (Or.inl rfl))
    (.requestBody rfl ⟨_, List.mem_cons_self, rfl⟩)

/-- What a pointer designates in the pass for the request. -/
def designated? (pointer : String) : Option String :=
  (request.pass none).toOption.bind fun pass =>
    pass.table.resolvePointer (SchemaTable.redirect pass.table.names pointer)

theorem designates {pass : Pass} (prepared : request.pass none = .ok pass) (pointer : String)
    {name : String} (found : designated? pointer = some name) :
    pass.table.resolvePointer (SchemaTable.redirect pass.table.names pointer) = some name := by
  rwa [designated?, prepared, Except.toOption, Option.bind_some] at found

end Kennel

theorem kennel_keeps_dogs : ∃ pass, Kennel.request.pass none = .ok pass ∧
    pass.run = .ok Kennel.set ∧ Kennel.document.InPath Kennel.dogs ∧
    Kennel.dogs.Contains Kennel.dog ∧
    Kennel.dog.facets.reference = some (Pointer.toSchema "guard-dog") ∧
    pass.table.resolvePointer (SchemaTable.redirect pass.table.names
      (Pointer.toSchema "guard-dog")) = some "GuardDog1" ∧
    ∃ schema, pass.table.get? "GuardDog1" = some schema ∧
      ("GuardDog1" ∈ Kennel.set.names ↔ "GuardDog1" ∈ DeclarationSet.empty.names ∨
        "GuardDog1" ∈ Kennel.set.referenced ∨ schema.isShapeless = false) := by
  obtain ⟨pass, prepared, finished⟩ := bind_eq_ok.mp Kennel.run_request
  have named := Kennel.designates prepared (Pointer.toSchema "guard-dog")
    (show _ = some "GuardDog1" by decide +kernel)
  have contained : Kennel.dogs.Contains Kennel.dog :=
    .single (Schema.mem_children.mpr (Or.inr (Or.inl rfl)))
  obtain ⟨-, declared_iff⟩ := Request.operation_target_declared_iff prepared
  obtain ⟨schema, found, each⟩ := declared_iff Kennel.dogs Kennel.dog
    (Pointer.toSchema "guard-dog") "GuardDog1" Kennel.inPath_dogs contained rfl named
  exact ⟨pass, prepared, finished, Kennel.inPath_dogs, contained, rfl, named, schema, found,
    each Kennel.set finished⟩

/-- The payload of the kennel has no shape, and only the operation refers to it. -/
theorem not_always_operation_target_declared : ¬ ∀ (d : Document) (prune : Bool) (pass : Pass)
    (set : DeclarationSet) (s c : Schema) (pointer name : String),
    (Request.ofOperations d {} [] prune).pass none = .ok pass → pass.run = .ok set →
    d.InPath s → s.Contains c → c.facets.reference = some pointer →
    pass.table.resolvePointer (SchemaTable.redirect pass.table.names pointer) = some name →
    name ∈ set.names := by
  intro always
  obtain ⟨pass, prepared, finished⟩ := bind_eq_ok.mp Kennel.run_request
  have named := Kennel.designates prepared (Pointer.toSchema "Payload")
    (show _ = some "Payload" by decide +kernel)
  have declared := always Kennel.document true pass Kennel.set Kennel.payload Kennel.payload
    (Pointer.toSchema "Payload") "Payload" prepared finished Kennel.inPath_payload .refl rfl named
  exact absurd declared (by decide)

end SchemaTypes
