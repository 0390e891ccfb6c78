import SchemaTypes.Proofs.Resolve.Assembly

/-!
# Chains of passes

Every set that a chain of passes yields is valid: its names are distinct, everything that it refers
to is there, and no record includes itself.
-/
namespace SchemaTypes

open Data Naming DeclarationSet

/-- What a pass is asked for: the schemas of a document, the words to escape, the names that pruning
keeps, and whether to prune. -/
structure Request where
  keys : List String
  schema? : String → Option Schema
  reserved : ReservedWords := {}
  retained : List String := []
  prune : Bool := false

namespace Request

/-- A request for the component schemas of a document. -/
def ofDocument (d : Document) : Request :=
  { keys := Entries.keys d.schemas, schema? := Entries.get? d.schemas }

/-- The pass for a request, which starts from what an earlier one yielded, if there was one. -/
def pass (r : Request) (seed : Option DeclarationSet) : Except Error Pass := do
  let pass ← Pass.ofSource r.keys r.schema?
  let pass := { pass.retain r.retained with reserved := r.reserved, prune := r.prune }
  match seed with
  | none => pure pass
  | some seed => pure (pass.seedWith seed)

def run (r : Request) (seed : Option DeclarationSet) : Except Error DeclarationSet := do
  (← r.pass seed).run

variable {r : Request} {seed : Option DeclarationSet} {set : DeclarationSet}

/-- What the pass for a request takes over from the fresh pass over its schemas and from the
seed. -/
structure Prepares (r : Request) (seed : Option DeclarationSet) (fresh pass : Pass) : Prop where
  table : pass.table = fresh.table
  taken : ∀ name ∈ fresh.taken.taken, name ∈ pass.taken.taken
  retained : pass.retained = (fresh.retain r.retained).retained
  earlier : pass.earlier = seed.getD .empty
  reserved : ∀ name ∈ pass.earlier.names, name ∈ pass.taken.taken

variable {pass : Pass}

theorem exists_fresh (prepared : r.pass seed = .ok pass) :
    ∃ fresh, Pass.ofSource r.keys r.schema? = .ok fresh ∧ r.Prepares seed fresh pass := by
  obtain ⟨fresh, built, last⟩ := bind_eq_ok.mp prepared
  refine ⟨fresh, built, ?_⟩
  cases seed with
  | none =>
    cases last
    have earlier : (fresh.seed.getD .empty) = .empty := by
      rw [Pass.ofSource_seed built, Option.getD_none]
    refine ⟨rfl, fun _ => id, rfl, earlier, fun name member => ?_⟩
    -- Without a seed there is nothing that was declared before.
    rw [Pass.earlier, Pass.retain, earlier] at member
    cases member
  | some s =>
    cases last
    -- Seeding reserves the names of the seed on top of those that the table claimed.
    refine ⟨rfl, fun name used => ?_, rfl, rfl, fun name member => ?_⟩
    · exact NameTable.mem_reserveAll.mpr (Or.inr used)
    · exact NameTable.mem_reserveAll.mpr (Or.inl (NameSet.mem_ofList.mpr member))

theorem pass_fits (prepared : r.pass seed = .ok pass) : pass.table.Fits pass.taken := by
  obtain ⟨fresh, built, prepares⟩ := exists_fresh prepared
  rw [prepares.table]
  exact (Pass.ofSource_fits built).mono prepares.taken

theorem earlier_of_pass (prepared : r.pass seed = .ok pass) :
    pass.earlier = seed.getD .empty := by
  obtain ⟨fresh, -, prepares⟩ := exists_fresh prepared
  exact prepares.earlier

theorem pass_ready (valid : ∀ s ∈ seed, s.Valid) (prepared : r.pass seed = .ok pass) :
    pass.Ready := by
  obtain ⟨fresh, -, prepares⟩ := exists_fresh prepared
  refine ⟨pass_fits prepared, prepares.reserved, ?_⟩
  rw [prepares.earlier]
  cases seed with
  | none => exact empty_valid
  | some s => exact valid s rfl

theorem run_valid (valid : ∀ s ∈ seed, s.Valid) (finished : r.run seed = .ok set) : set.Valid := by
  obtain ⟨pass, prepared, last⟩ := bind_eq_ok.mp finished
  exact Pass.run_valid (pass_ready valid prepared) last

end Request

/-- What a chain of passes over any documents yields: the first one has no seed, and each later one
is seeded with what the one before it yielded. -/
inductive Emitted : DeclarationSet → Prop
  | first (r : Request) {set : DeclarationSet} : r.run none = .ok set → Emitted set
  | next (r : Request) {seed set : DeclarationSet} :
    Emitted seed → r.run (some seed) = .ok set → Emitted set

variable {set : DeclarationSet}

theorem Emitted.valid (emitted : Emitted set) : set.Valid := by
  induction emitted with
  | first r finished => exact r.run_valid (by simp) finished
  | next r _ finished ih =>
    exact r.run_valid (fun s member => Option.mem_some.mp member ▸ ih) finished

/-! ### A zoo that extends a shop

Two passes, the second one pruned. Names collide within a document and across both of them: two keys
of the shop have the same name, and so have an enum of its own and one inside a schema.
-/

namespace Zoo

def pointer (name : String) : Schema :=
  .node { reference := some (Document.Pointer.toSchema name) } none none [] [] []

def status : Schema :=
  .node { type := some "string", literals := [.text "open", .text "closed"] } none none [] [] []

def scalar (word : String) : Schema :=
  .node { type := some word } none none [] [] []

def object (properties : List (String × Schema)) : Schema :=
  .node {} (some properties) none [] [] []

theorem exists_property_of_child {f : Facets} {ps : List (String × Schema)} {c : Schema}
    (child : c ∈ (Schema.node f (some ps) none [] [] []).children) : ∃ p ∈ ps, p.2 = c := by
  simpa [Schema.mem_children, Schema.properties, Schema.items, Schema.allOf, Schema.oneOf,
    Schema.anyOf] using child

def allOf (members : List Schema) : Schema :=
  .node {} none none members [] []

def document (schemas : Entries Schema) : Document :=
  { version := "3.0.3", info := default, paths := [], components := some schemas }

def shop : Request :=
  .ofDocument <| document [
    ("pet-store", object [("status", status), ("owner", pointer "Owner")]),
    ("PetStore", allOf [pointer "Owner", object [("pets", pointer "pet-store")]]),
    ("PetStoreStatus", status),
    ("Owner", object [("name", .node { type := some "string" } none none [] [] [])])]

def zoo : Request :=
  { Request.ofDocument (document [
      ("Zoo", allOf [pointer "pet-store", object [("status", status)]]),
      ("pet-store", .empty),
      ("Unused", .node { type := some "integer" } none none [] [] [])]) with
    retained := ["Zoo"], prune := true }

def shopSet : DeclarationSet where
  declarations := [
    .record "PetStore"
      [.field "status" "status" (.reference "PetStoreStatus1" false) false none,
        .field "owner" "owner" (.reference "Owner" false) false none] none,
    .record "PetStore1"
      [.inclusion "Owner", .field "pets" "pets" (.reference "PetStore" false) false none] none,
    .record "Owner" [.field "name" "name" (.scalar .string false) false none] none]
  enums := [
    .ofLiterals "PetStoreStatus1" ["open", "closed"] none,
    .ofLiterals "PetStoreStatus" ["open", "closed"] none]
  referenced := .ofList ["Owner", "PetStore", "PetStoreStatus1"]

def zooSet : DeclarationSet where
  declarations := shopSet.declarations ++ [
    .record "Zoo"
      [.inclusion "PetStore", .field "status" "status" (.reference "ZooStatus" false) false none]
      none]
  enums := shopSet.enums ++ [.ofLiterals "ZooStatus" ["open", "closed"] none]
  referenced := shopSet.referenced.insert "ZooStatus"

theorem shop_run : shop.run none = .ok shopSet :=
  eq_ok_of_toOption (by decide +kernel)

theorem zoo_run : zoo.run (some shopSet) = .ok zooSet :=
  eq_ok_of_toOption (by decide +kernel)

theorem zooSet_emitted : Emitted zooSet :=
  .next zoo (.first shop shop_run) zoo_run

end Zoo

/-! ### What every chain yields -/

/-- Every name that is mentioned in the set, at any depth, is declared in it. -/
theorem emitted_closed (emitted : Emitted set) : set.Closed :=
  emitted.valid.closed

theorem zooSet_closed : Emitted Zoo.zooSet ∧ Zoo.zooSet.Closed :=
  ⟨Zoo.zooSet_emitted, emitted_closed Zoo.zooSet_emitted⟩

/-- The names of the declarations and enums, taken together, are distinct. -/
theorem emitted_names_nodup (emitted : Emitted set) : set.names.Nodup :=
  emitted.valid.distinct

theorem zooSet_names_nodup : Emitted Zoo.zooSet ∧
    ["PetStore", "PetStore1", "Owner", "Zoo", "PetStoreStatus1", "PetStoreStatus",
      "ZooStatus"].Nodup :=
  ⟨Zoo.zooSet_emitted, emitted_names_nodup Zoo.zooSet_emitted⟩

/-- No chain of inclusions among the declared records leads back to its start. -/
theorem emitted_acyclic (emitted : Emitted set) : set.Acyclic :=
  emitted.valid.acyclic

theorem zooSet_acyclic : Emitted Zoo.zooSet ∧ Zoo.zooSet.Includes "Zoo" "PetStore" ∧
    ¬ Relation.TransGen Zoo.zooSet.Includes "PetStore" "Zoo" := by
  have edge : Zoo.zooSet.Includes "Zoo" "PetStore" :=
    ⟨_, List.mem_of_getElem? (i := 3) rfl, rfl, List.mem_cons_self⟩
  exact ⟨Zoo.zooSet_emitted, edge, fun back =>
    emitted_acyclic Zoo.zooSet_emitted "Zoo" (Relation.TransGen.head edge back)⟩

end SchemaTypes
