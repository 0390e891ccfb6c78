import SchemaTypes.Proofs.Document.Rewriting

/-!
# Visits to references

The references of a schema can be visited with an update that has a state of its own. The update
comes to every reference once, in the order in which they are listed, and nothing else changes.
-/
namespace SchemaTypes.Schema

/-! ### Updates -/

variable {σ : Type}

mutual

/-- Runs an update on every pointer in a node and the nodes below it, one after the other, and puts
what it returns in the pointer's place. -/
def updateReferences (f : String → StateM σ String) : Schema → StateM σ Schema
  | .node facets properties items allOf oneOf anyOf => do
    let reference ← (match facets.reference with
      | some pointer => some <$> f pointer
      | none => pure none)
    let properties ← (match properties with
      | some ps => some <$> updatePropertyReferences f ps
      | none => pure none)
    let items ← (match items with
      | some i => some <$> i.updateReferences f
      | none => pure none)
    let allOf ← updateListReferences f allOf
    let oneOf ← updateListReferences f oneOf
    let anyOf ← updateListReferences f anyOf
    pure (.node { facets with reference } properties items allOf oneOf anyOf)
termination_by structural s => s

def updatePropertyReferences (f : String → StateM σ String) :
    List (String × Schema) → StateM σ (List (String × Schema))
  | [] => pure []
  | (key, s) :: rest => do
    let s ← s.updateReferences f
    let rest ← updatePropertyReferences f rest
    pure ((key, s) :: rest)
termination_by structural ps => ps

def updateListReferences (f : String → StateM σ String) : List Schema → StateM σ (List Schema)
  | [] => pure []
  | s :: rest => do
    let s ← s.updateReferences f
    let rest ← updateListReferences f rest
    pure (s :: rest)
termination_by structural ss => ss

end

/-- The update that replaces a pointer and notes the one that was there. -/
def noting (g : String → String) (pointer : String) : StateM (List String) String := do
  modify fun seen => seen ++ [pointer]
  pure (g pointer)

/-! ### Notes -/

section Notes

variable {α β : Type} {m : StateM (List String) α} {f : α → StateM (List String) β} {a : α} {b : β}
  {pointers later : List String}

/-- The computation returns `a` and adds the pointers to what was noted before. -/
def Notes (m : StateM (List String) α) (pointers : List String) (a : α) : Prop :=
  ∀ seen, m.run seen = (a, seen ++ pointers)

theorem Notes.pure (a : α) : Notes (Pure.pure a) [] a :=
  fun seen => by rw [List.append_nil, StateT.run_pure]; rfl

theorem Notes.bind (first : Notes m pointers a) (rest : Notes (f a) later b) :
    Notes (m >>= f) (pointers ++ later) b := by
  intro seen
  change (f (m.run seen).1).run (m.run seen).2 = _
  rw [first seen, rest, List.append_assoc]

theorem Notes.bind_pure (first : Notes m pointers a) (h : α → β) :
    Notes (m >>= fun a => Pure.pure (h a)) pointers (h a) := by
  intro seen
  change (h (m.run seen).1, (m.run seen).2) = _
  rw [first seen]

theorem Notes.map (first : Notes m pointers a) (h : α → β) : Notes (h <$> m) pointers (h a) :=
  first.bind_pure h

theorem notes_noting (g : String → String) (pointer : String) :
    Notes (noting g pointer) [pointer] (g pointer) :=
  fun _ => rfl

theorem notes_reference (g : String → String) (reference : Option String) :
    Notes
      (match reference with
        | some pointer => some <$> noting g pointer
        | none => Pure.pure none)
      reference.toList (reference.map g) := by
  cases reference with
  | none => exact .pure none
  | some pointer => exact (notes_noting g pointer).map some

/-- A part that may be left out adds its pointers if it is there. -/
theorem notes_option {part : Option α} {visit : α → StateM (List String) β}
    {references : α → List String} {replace : α → β} :
    (∀ a ∈ part, Notes (visit a) (references a) (replace a)) →
    Notes
      (match part with
        | some a => some <$> visit a
        | none => Pure.pure none)
      (match part with
        | some a => references a
        | none => [])
      (match part with
        | some a => some (replace a)
        | none => none) := by
  intro given
  cases part with
  | none => exact .pure none
  | some a => exact (given a rfl).map some

end Notes

/-! ### Visits to every reference -/

variable {g : String → String}

/-- A visit with the update notes the references of the schema, and returns it with all of them
replaced. -/
def NotesReferences (g : String → String) (s : Schema) : Prop :=
  Notes (s.updateReferences (noting g)) s.references (s.mapReferences g)

theorem notes_updatePropertyReferences {ps : List (String × Schema)}
    (each : ∀ p ∈ ps, p.2.NotesReferences g) :
    Notes (updatePropertyReferences (noting g) ps) (propertyReferences ps)
      (mapPropertyReferences g ps) := by
  induction ps with
  | nil => exact .pure []
  | cons p rest ih =>
    have first := each p List.mem_cons_self
    have later := ih fun q member => each q (List.mem_cons_of_mem _ member)
    exact first.bind (later.bind_pure fun ps => (p.1, p.2.mapReferences g) :: ps)

theorem notes_updateListReferences {ss : List Schema} (each : ∀ s ∈ ss, s.NotesReferences g) :
    Notes (updateListReferences (noting g) ss) (listReferences ss) (mapListReferences g ss) := by
  induction ss with
  | nil => exact .pure []
  | cons s rest ih =>
    have first := each s List.mem_cons_self
    have later := ih fun c member => each c (List.mem_cons_of_mem _ member)
    exact first.bind (later.bind_pure fun ss => s.mapReferences g :: ss)

/-- A visit notes every reference of a schema, in order. -/
theorem notes_updateReferences (g : String → String) (s : Schema) : s.NotesReferences g := by
  induction s using Schema.induction with
  | step s ih =>
    rcases s with ⟨facets, properties, items, allOf, oneOf, anyOf⟩
    have own := notes_reference g facets.reference
    have inProperties := notes_option fun ps (given : ps ∈ properties) =>
      notes_updatePropertyReferences fun p member =>
        ih p.2 (mem_children_of_property given member)
    have inItems := notes_option fun i (given : i ∈ items) =>
      ih i (mem_children.mpr (Or.inr (Or.inl given)))
    have inAllOf := notes_updateListReferences fun s (member : s ∈ allOf) =>
      ih s (mem_children_of_allOf member)
    have inOneOf := notes_updateListReferences fun s (member : s ∈ oneOf) =>
      ih s (mem_children_of_oneOf member)
    have inAnyOf := notes_updateListReferences fun s (member : s ∈ anyOf) =>
      ih s (mem_children_of_anyOf member)
    -- The parts are visited in the order in which their references are listed.
    rw [NotesReferences, references.eq_def]
    simp only [List.append_assoc]
    rcases properties with _ | ps <;> rcases items with _ | i <;>
      exact own.bind (inProperties.bind (inItems.bind (inAllOf.bind (inOneOf.bind
        (inAnyOf.bind_pure _)))))

/-- The node that is nothing but a reference. -/
def referring (pointer : String) : Schema :=
  .node { reference := some pointer } none none [] [] []

/-- References in a property, in items, and below `oneOf` and `allOf`. -/
example :
    let nested : Schema := .node {}
      (some [("a", referring "#/A"),
        ("b", .node { type := some "array" } none (some (referring "#/B")) [] [] []),
        ("c", .node {} none none [] [referring "#/C",
          .node {} none none [referring "#/D"] [] []] [])]) none [] [] []
    ((nested.updateReferences (noting (· ++ "!"))).run []).2 = ["#/A", "#/B", "#/C", "#/D"] := by
  decide +kernel

end SchemaTypes.Schema
