import SchemaTypes.Document.Basic
import SchemaTypes.Proofs.Document.Descendants

/-!
# Schemas in operations

The places of an API description where an operation can have a schema, and the keys that the
schemas in these places refer to.
-/
namespace SchemaTypes.Document

open Data

variable {d : Document} {s : Schema} {key : String}

/-- The operation is one of the path, under some method. -/
def PathItem.HasOperation (item : PathItem) (o : Operation) : Prop :=
  item.get = some o ∨ item.post = some o ∨ item.put = some o ∨ item.patch = some o ∨
    item.delete = some o

/-- The schema is that of a body in the content. -/
def InContent (content : Entries Media) (s : Schema) : Prop :=
  ∃ e ∈ content, e.2.schema = some s

/-- The schema stands in a parameter, the request body or a response of the operation. -/
inductive Operation.HasSchema (o : Operation) (s : Schema) : Prop
  | parameter {p : Parameter} : p ∈ o.parameters → p.schema = some s → HasSchema o s
  | requestBody {body : RequestBody} : o.requestBody = some body → InContent body.content s →
    HasSchema o s
  | response {e : String × Response} : e ∈ o.responses → InContent e.2.content s → HasSchema o s

/-- The schema stands in an operation of a path, or in a parameter of the path itself. -/
inductive InPath (d : Document) (s : Schema) : Prop
  | parameter {e : String × PathItem} {p : Parameter} : e ∈ d.paths → p ∈ e.2.parameters →
    p.schema = some s → InPath d s
  | operation {e : String × PathItem} {o : Operation} : e ∈ d.paths → e.2.HasOperation o →
    o.HasSchema s → InPath d s

theorem mem_operations {item : PathItem} {o : Operation} :
    o ∈ item.operations ↔ item.HasOperation o := by
  simp [PathItem.operations, PathItem.HasOperation]

theorem mem_contentSchemas {content : Entries Media} :
    s ∈ contentSchemas content ↔ InContent content s :=
  List.mem_filterMap

theorem mem_schemas_iff {o : Operation} : s ∈ o.schemas ↔ o.HasSchema s := by
  have bodies : s ∈ o.schemas ↔ (∃ p ∈ o.parameters, p.schema = some s) ∨
      (∃ body, o.requestBody = some body ∧ InContent body.content s) ∨
      ∃ e ∈ o.responses, InContent e.2.content s := by
    rcases o with ⟨id, parameters, _ | body, responses⟩ <;>
      simp [Operation.schemas, mem_contentSchemas]
  rw [bodies]
  constructor
  · rintro (⟨p, listed, given⟩ | ⟨body, found, inside⟩ | ⟨e, listed, inside⟩)
    · exact .parameter listed given
    · exact .requestBody found inside
    · exact .response listed inside
  · intro inside
    cases inside with
    | parameter listed given => exact Or.inl ⟨_, listed, given⟩
    | requestBody found inside => exact Or.inr (Or.inl ⟨_, found, inside⟩)
    | response listed inside => exact Or.inr (Or.inr ⟨_, listed, inside⟩)

theorem mem_operationSchemas : s ∈ d.operationSchemas ↔ d.InPath s := by
  simp only [operationSchemas, PathItem.schemas, List.mem_flatMap, List.mem_append,
    List.mem_filterMap, mem_operations, mem_schemas_iff]
  constructor
  · rintro ⟨e, path, ⟨p, listed, given⟩ | ⟨o, offered, inside⟩⟩
    · exact .parameter path listed given
    · exact .operation path offered inside
  · intro inside
    cases inside with
    | parameter path listed given => exact ⟨_, path, Or.inl ⟨_, listed, given⟩⟩
    | operation path offered inside => exact ⟨_, path, Or.inr ⟨_, offered, inside⟩⟩

/-! ### References of operations -/

/-- Keeping the first of equal keys keeps every key. -/
theorem mem_foldl_unique {keys seen : List String} :
    key ∈ keys.foldl (fun seen key => if key ∈ seen then seen else seen ++ [key]) seen ↔
      key ∈ seen ∨ key ∈ keys := by
  induction keys generalizing seen with
  | nil => simp
  | cons first rest ih =>
    rw [List.foldl_cons, ih, List.mem_cons]
    split
    next known =>
      -- The first key is not appended, since it is there.
      have absorbed : key = first → key ∈ seen := fun same => same ▸ known
      exact ⟨Or.imp_right Or.inr, fun member => member.elim Or.inl (Or.imp_left absorbed)⟩
    next => simp [or_assoc]

/-- The keys that operations refer to are those that pointers in the nodes of their schemas name. -/
theorem mem_operationReferences :
    key ∈ d.operationReferences ↔ ∃ s, d.InPath s ∧ ∃ c, s.Contains c ∧
      ∃ pointer, c.facets.reference = some pointer ∧ Pointer.target pointer = some key := by
  rw [operationReferences, mem_foldl_unique, or_iff_right List.not_mem_nil, List.mem_filterMap]
  simp only [List.mem_flatMap, mem_operationSchemas, Schema.mem_references_iff]
  constructor
  · rintro ⟨pointer, ⟨s, inPath, c, contained, refers⟩, named⟩
    exact ⟨s, inPath, c, contained, pointer, refers, named⟩
  · rintro ⟨s, inPath, c, contained, pointer, refers, named⟩
    exact ⟨pointer, ⟨s, inPath, c, contained, refers⟩, named⟩

end SchemaTypes.Document
