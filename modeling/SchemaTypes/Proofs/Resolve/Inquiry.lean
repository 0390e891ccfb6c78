import SchemaTypes.Proofs.Document.Visits
import SchemaTypes.Proofs.Resolve.Inclusion

/-!
# Inquiries

A computation that gets to know what pointers designate by asking, one pointer after the other. The
search along inclusions as such a computation asks for pointers of schemas that inclusions lead to.
-/
namespace SchemaTypes

/-- A computation that asks what pointers designate. What it asks next may depend on the answers. -/
inductive Inquiry (α : Type) where
  | done (a : α)
  | ask (pointer : String) (next : Option String → Inquiry α)

namespace Inquiry

variable {α β : Type}

def bind : Inquiry α → (α → Inquiry β) → Inquiry β
  | done a, f => f a
  | ask pointer next, f => ask pointer fun target => (next target).bind f

instance : Monad Inquiry where
  pure := done
  bind := bind

/-- What the pointer designates. -/
def target (pointer : String) : Inquiry (Option String) :=
  ask pointer done

/-- What the pointer of a node designates, if the node has one. -/
def targetOf : Option String → Inquiry (Option String)
  | some pointer => target pointer
  | none => pure none

/-! ### Answers -/

/-- What the computation comes to under the answers. -/
def result (answer : String → Option String) : Inquiry α → α
  | done a => a
  | ask pointer next => (next (answer pointer)).result answer

/-- The pointers that the computation asks for under the answers, in order. -/
def asked (answer : String → Option String) : Inquiry α → List String
  | done _ => []
  | ask pointer next => pointer :: (next (answer pointer)).asked answer

variable {answer : String → Option String} {asks : String → Prop} {m : Inquiry α} {a : α}

theorem result_bind (m : Inquiry α) (f : α → Inquiry β) :
    (m >>= f).result answer = (f (m.result answer)).result answer := by
  induction m with
  | done a => rfl
  | ask pointer next ih => exact ih (answer pointer)

theorem asked_bind (m : Inquiry α) (f : α → Inquiry β) :
    (m >>= f).asked answer = m.asked answer ++ (f (m.result answer)).asked answer := by
  induction m with
  | done a => rfl
  | ask pointer next ih => exact congrArg (pointer :: ·) (ih (answer pointer))

/-- Under the answers the computation comes to `a`, and all that it asks for is of one kind. -/
structure Finds (answer : String → Option String) (asks : String → Prop) (m : Inquiry α) (a : α) :
    Prop where
  result : m.result answer = a
  asked : ∀ pointer ∈ m.asked answer, asks pointer

theorem Finds.pure (a : α) : Finds answer asks (Pure.pure a) a :=
  ⟨rfl, nofun⟩

theorem Finds.bind {f : α → Inquiry β} {b : β} (first : Finds answer asks m a)
    (rest : Finds answer asks (f a) b) : Finds answer asks (m >>= f) b := by
  obtain ⟨rfl, firstAsked⟩ := first
  refine ⟨?_, fun pointer member => ?_⟩
  · rw [result_bind]
    exact rest.result
  · rw [asked_bind, List.mem_append] at member
    exact member.elim (firstAsked pointer) (rest.asked pointer)

theorem Finds.mono {other : String → Prop} (finds : Finds answer asks m a)
    (weaker : ∀ pointer, asks pointer → other pointer) : Finds answer other m a :=
  ⟨finds.result, fun pointer member => weaker pointer (finds.asked pointer member)⟩

theorem finds_target {pointer : String} (allowed : asks pointer) :
    Finds answer asks (target pointer) (answer pointer) :=
  ⟨rfl, fun _ member => List.mem_singleton.mp member ▸ allowed⟩

theorem finds_targetOf {reference : Option String}
    (allowed : ∀ pointer, reference = some pointer → asks pointer) :
    Finds answer asks (targetOf reference) (reference.bind answer) := by
  cases reference with
  | none => exact .pure none
  | some pointer => exact finds_target (allowed pointer rfl)

/-! ### Searches -/

/-- Tries the nodes in order, like `SchemaTypes.searchEach`. -/
def searchEach (search : List String → String → Inquiry (Option α × List String)) :
    List String → List String → Inquiry (Option α × List String)
  | visited, [] => pure (none, visited)
  | visited, node :: rest => do
    match ← search visited node with
    | (some found, visited) => pure (some found, visited)
    | (none, visited) => searchEach search visited rest

/-- Depth-first search where the edges of a node have to be asked for. -/
def searchPath (edges : String → Inquiry (List String)) (goal : String) :
    (fuel : Nat) → (visited : List String) → (node : String) →
      Inquiry (Option (List String) × List String)
  | 0, visited, _ => pure (none, visited)
  | fuel + 1, visited, node =>
    if node = goal then pure (some [node], visited)
    else if node ∈ visited then pure (none, visited)
    else do
      let next ← edges node
      match ← searchEach (searchPath edges goal fuel) (node :: visited) next with
      | (some path, visited) => pure (some (node :: path), visited)
      | (none, visited) => pure (none, visited)

theorem finds_searchEach {search : List String → String → Option α × List String}
    {inquire : List String → String → Inquiry (Option α × List String)} {next : List String}
    (each : ∀ node ∈ next, ∀ visited,
      Finds answer asks (inquire visited node) (search visited node))
    (visited : List String) :
    Finds answer asks (searchEach inquire visited next)
      (SchemaTypes.searchEach search visited next) := by
  induction next generalizing visited with
  | nil => exact .pure _
  | cons node rest ih =>
    rw [searchEach, SchemaTypes.searchEach]
    refine (each node List.mem_cons_self visited).bind ?_
    rcases search visited node with ⟨_ | found, later⟩
    · exact ih (fun n member => each n (List.mem_cons_of_mem _ member)) later
    · exact .pure (some found, later)

/-- A search asks for the edges of nodes that it can reach, and for nothing else. -/
theorem finds_searchPath {edges : String → List String} {inquire : String → Inquiry (List String)}
    {goal node : String}
    (each : ∀ n, Reaches edges node n → Finds answer asks (inquire n) (edges n))
    (fuel : Nat) (visited : List String) :
    Finds answer asks (searchPath inquire goal fuel visited node)
      (SchemaTypes.searchPath edges goal fuel visited node) := by
  induction fuel generalizing node visited with
  | zero => exact .pure _
  | succ fuel ih =>
    rw [searchPath, SchemaTypes.searchPath]
    by_cases same : node = goal
    · rw [if_pos same, if_pos same]
      exact .pure _
    rw [if_neg same, if_neg same]
    by_cases old : node ∈ visited
    · rw [if_pos old, if_pos old]
      exact .pure _
    rw [if_neg old, if_neg old]
    refine (each node .refl).bind ?_
    have deeper : Finds answer asks
        (searchEach (searchPath inquire goal fuel) (node :: visited) (edges node))
        (SchemaTypes.searchEach (SchemaTypes.searchPath edges goal fuel) (node :: visited)
          (edges node)) :=
      finds_searchEach (fun n edge _ => ih (fun k path => each k (path.head edge)) _) _
    refine deeper.bind ?_
    rcases SchemaTypes.searchEach (SchemaTypes.searchPath edges goal fuel) (node :: visited)
      (edges node) with ⟨_ | path, later⟩
    · exact .pure (none, later)
    · exact .pure (some (node :: path), later)

end Inquiry

/-! ### Inclusions -/

namespace SchemaTable

mutual

/-- The schemas that a member of `allOf` includes. -/
def askMemberInclusions : Schema → Inquiry (List String)
  | .node f properties _ allOf _ _ => do
    let own ← (match properties with
      | some _ => pure none
      | none => Inquiry.targetOf f.reference)
    let nested ← askMembersInclusions allOf
    pure (own.toList ++ nested)
termination_by structural s => s

def askMembersInclusions : List Schema → Inquiry (List String)
  | [] => pure []
  | s :: rest => do
    let first ← askMemberInclusions s
    let later ← askMembersInclusions rest
    pure (first ++ later)
termination_by structural ss => ss

end

/-- The schemas that the record of a schema includes. -/
def askInclusionsOf (s : Schema) : Inquiry (List String) := do
  let own ← (if !s.hasComposition && s.isBareReference then Inquiry.targetOf s.facets.reference
    else pure none)
  let nested ← askMembersInclusions s.allOf
  pure (own.toList ++ nested)

def askInclusionEdges (table : SchemaTable) (name : String) : Inquiry (List String) :=
  match table.get? name with
  | some s => askInclusionsOf s
  | none => pure []

/-- A path along inclusions. -/
def askInclusionPath? (table : SchemaTable) (start goal : String) :
    Inquiry (Option (List String)) := do
  let fuel := table.schemas.length + 2
  let (path, _) ← Inquiry.searchPath table.askInclusionEdges goal fuel [] start
  pure path

variable {table : SchemaTable} {s : Schema} {asks : String → Prop}

theorem finds_membersInclusions {ss : List Schema}
    (each : ∀ s ∈ ss,
      (askMemberInclusions s).Finds table.resolvePointer asks (table.memberInclusions s)) :
    (askMembersInclusions ss).Finds table.resolvePointer asks (table.membersInclusions ss) := by
  induction ss with
  | nil => exact .pure []
  | cons s rest ih =>
    have first := each s List.mem_cons_self
    have later := ih fun c member => each c (List.mem_cons_of_mem _ member)
    exact first.bind (later.bind (.pure _))

theorem finds_allOf
    (each : ∀ c ∈ s.children, (askMemberInclusions c).Finds table.resolvePointer
      (· ∈ c.references) (table.memberInclusions c)) :
    (askMembersInclusions s.allOf).Finds table.resolvePointer (· ∈ s.references)
      (table.membersInclusions s.allOf) := by
  refine finds_membersInclusions fun m member => ?_
  have child : m ∈ s.children := Schema.mem_children_of_allOf member
  exact (each m child).mono fun _ => Schema.mem_references_of_child child

theorem finds_memberInclusions (s : Schema) :
    (askMemberInclusions s).Finds table.resolvePointer (· ∈ s.references)
      (table.memberInclusions s) := by
  induction s using Schema.induction with
  | step s ih =>
    have nested := finds_allOf ih
    rcases s with ⟨f, _ | ps, items, allOf, oneOf, anyOf⟩
    · exact (Inquiry.finds_targetOf fun _ => Schema.mem_references_of_own).bind
        (nested.bind (.pure _))
    · exact Inquiry.Finds.bind (.pure none) (nested.bind (.pure _))

theorem finds_inclusionsOf (s : Schema) :
    (askInclusionsOf s).Finds table.resolvePointer (· ∈ s.references) (table.inclusionsOf s) := by
  have nested : (askMembersInclusions s.allOf).Finds table.resolvePointer (· ∈ s.references)
      (table.membersInclusions s.allOf) :=
    finds_allOf fun c _ => finds_memberInclusions c
  unfold askInclusionsOf inclusionsOf
  split
  · exact (Inquiry.finds_targetOf fun _ => Schema.mem_references_of_own).bind
      (nested.bind (.pure _))
  · exact Inquiry.Finds.bind (.pure none) (nested.bind (.pure _))

/-- The pointer stands in a schema that inclusions lead to from the start. -/
def Onward (table : SchemaTable) (start pointer : String) : Prop :=
  ∃ name s, Reaches table.inclusionEdges start name ∧ table.get? name = some s ∧
    pointer ∈ s.references

/-- The search asks for pointers of the schemas that it comes to. -/
theorem finds_inclusionPath? (table : SchemaTable) (start goal : String) :
    (table.askInclusionPath? start goal).Finds table.resolvePointer (table.Onward start)
      (table.inclusionPath? start goal) := by
  have edges n (path : Reaches table.inclusionEdges start n) :
      (table.askInclusionEdges n).Finds table.resolvePointer (table.Onward start)
        (table.inclusionEdges n) := by
    unfold askInclusionEdges inclusionEdges
    cases found : table.get? n with
    | none => exact .pure []
    | some s => exact (finds_inclusionsOf s).mono fun _ inside => ⟨n, s, path, found, inside⟩
  exact (Inquiry.finds_searchPath edges _ _).bind (.pure _)

end SchemaTable
end SchemaTypes
