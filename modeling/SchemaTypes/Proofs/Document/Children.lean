import SchemaTypes.Document.Schema

/-!
# Children of a schema node

Induction over schema nodes, from the nodes right below one to the node itself.
-/
namespace SchemaTypes.Schema

/-- The nodes right below a node, whatever part they stand in. -/
def children (s : Schema) : List Schema :=
  (s.properties.getD []).map Prod.snd ++ s.items.toList ++ s.allOf ++ s.oneOf ++ s.anyOf

theorem mem_children {s c : Schema} :
    c ∈ s.children ↔ (∃ ps, s.properties = some ps ∧ ∃ p ∈ ps, p.2 = c) ∨ s.items = some c ∨
      c ∈ s.allOf ∨ c ∈ s.oneOf ∨ c ∈ s.anyOf := by
  cases h : s.properties <;> simp [children, h]

theorem mem_children_of_property {s : Schema} {ps : List (String × Schema)} {p : String × Schema}
    (given : s.properties = some ps) (member : p ∈ ps) : p.2 ∈ s.children :=
  mem_children.mpr (Or.inl ⟨ps, given, p, member, rfl⟩)

theorem mem_children_of_allOf {s m : Schema} (member : m ∈ s.allOf) : m ∈ s.children :=
  mem_children.mpr (Or.inr (Or.inr (Or.inl member)))

theorem mem_children_of_oneOf {s m : Schema} (member : m ∈ s.oneOf) : m ∈ s.children :=
  mem_children.mpr (Or.inr (Or.inr (Or.inr (Or.inl member))))

theorem mem_children_of_anyOf {s m : Schema} (member : m ∈ s.anyOf) : m ∈ s.children :=
  mem_children.mpr (Or.inr (Or.inr (Or.inr (Or.inr member))))

private theorem sizeOf_child {s c : Schema} (child : c ∈ s.children) : sizeOf c < sizeOf s := by
  cases s with
  | node f ps is as os ns =>
    rcases mem_children.mp child with ⟨_, found, p, member, rfl⟩ | found | member | member | member
    · have within := List.sizeOf_lt_of_mem member
      cases p with
      | mk key s =>
        cases found
        simp only [Schema.node.sizeOf_spec, Option.some.sizeOf_spec, Prod.mk.sizeOf_spec]
          at within ⊢
        omega
    · cases found
      simp only [Schema.node.sizeOf_spec, Option.some.sizeOf_spec]
      omega
    all_goals
      have within := List.sizeOf_lt_of_mem member
      simp only [Schema.allOf, Schema.oneOf, Schema.anyOf, Schema.node.sizeOf_spec] at within ⊢
      omega

/-- What holds of a node when it holds of its children holds of every node. -/
@[elab_as_elim]
theorem induction {P : Schema → Prop} (step : ∀ s, (∀ c ∈ s.children, P c) → P s) (s : Schema) :
    P s :=
  step s fun c _ => induction step c
termination_by sizeOf s
decreasing_by exact sizeOf_child ‹_›

end SchemaTypes.Schema
