import SchemaTypes.Proofs.Resolve.Declared
import SchemaTypes.Proofs.Resolve.Making
import SchemaTypes.Proofs.Resolve.Reseeding

/-!
# Unions of a pass

Every union that a pass without a seed yields, at whatever depth, has been made from a node with
alternatives: its members are the first occurrences of the types that these resolve to. So no union
is empty, and none has a member twice.
-/
namespace SchemaTypes

open Data Naming Resolve ResolveState

/-! ### Made unions -/

namespace Scope

variable {scope : Scope} {s : Schema} {t : TypeExpr} {typeName : String} {nullable : Bool}
  {members : List TypeExpr} {d : Declaration} {before after start final : ResolveState}

/-- Between the two states, the node or one below it makes a union of its alternatives, under the
name that comes down to it. -/
def MakesUnion (scope : Scope) (s : Schema) (typeName : String) (before : ResolveState)
    (members : List TypeExpr) (after : ResolveState) : Prop :=
  ∃ c hint start final, Schema.Names (s, typeName) (c, hint) ∧ c.allOf = [] ∧
    before.Precedes start ∧ scope.UnionOf hint c.alternatives start members final ∧
    final.Precedes after

theorem MakesUnion.within (made : scope.MakesUnion s typeName start members final)
    (early : before.Precedes start) (late : final.Precedes after) :
    scope.MakesUnion s typeName before members after := by
  obtain ⟨c, hint, first, last, names, alone, begins, union, ends⟩ := made
  exact ⟨c, hint, first, last, names, alone, early.trans begins, union, ends.trans late⟩

/-- Only alternatives make a union. -/
theorem resolve_union
    (returned : Returns (scope.resolve s typeName) before (.union members nullable) after) :
    s.allOf = [] ∧ scope.UnionOf typeName s.alternatives before members after := by
  obtain ⟨type, -, typed⟩ := Resolves.typeOf ⟨typeName, before, after, returned⟩
  obtain ⟨ss, shaped⟩ : ∃ ss, s.shape type = .union ss := by
    generalize s.shape type = shape at typed
    cases typed with
    | union ss _ => exact ⟨ss, rfl⟩
  obtain ⟨alone, rfl, given⟩ := Schema.shape_eq_union_iff.mp shaped
  rcases resolve_of_alternatives given returned with ⟨-, _, same, union⟩ | ⟨-, _, same⟩
  · cases same
    exact ⟨alone, union⟩
  · cases same

theorem declare_union {name : String} {description : Option String}
    (returned : Returns (scope.declare s) before
      (.declared (.union name members description)) after) :
    s.allOf = [] ∧ scope.UnionOf scope.schema s.alternatives before members after := by
  rw [declare_eq, returns_bind] at returned
  obtain ⟨type, mid, first, returned⟩ := returned
  obtain ⟨-, rfl⟩ := returns_lift.mp first
  obtain ⟨ss, shaped⟩ : ∃ ss, s.shape type = .union ss := by
    have kind := outcomeOf_of_returns returned
    generalize s.shape type = shape at kind
    cases kind with
    | union ss _ => exact ⟨ss, rfl⟩
  obtain ⟨alone, rfl, given⟩ := Schema.shape_eq_union_iff.mp shaped
  rw [shaped] at returned
  obtain ⟨members, mid, resolved, last⟩ := returns_bind.mp returned
  obtain ⟨same, rfl⟩ := returns_pure.mp last
  cases same
  exact ⟨alone, unionOf_of_returns given resolved⟩

/-- Every union in the declaration of a schema is made from one of its nodes. -/
theorem makesUnion_of_declare (returned : Returns (scope.declare s) before (.declared d) after)
    (union : d.HasUnion members) : scope.MakesUnion s scope.schema before members after := by
  cases union with
  | own =>
    obtain ⟨alone, union⟩ := declare_union returned
    exact ⟨s, scope.schema, before, after, .refl, alone, .refl before, union, .refl after⟩
  | inline inside part =>
    rcases makes_of_declare returned inside with rfl | made
    · -- The type of missing items is no union and has none inside.
      rcases part.cases_head with same | ⟨_, below, -⟩
      · cases same
      · cases below
    · obtain ⟨c, hint, start, final, names, begins, resolved, ends⟩ :=
        (made.of_part part).resolve_left nofun
      obtain ⟨alone, union⟩ := resolve_union resolved
      exact ⟨c, hint, start, final, names, alone, begins, union, ends⟩

end Scope

/-! ### Runs -/

theorem DeclarationSet.HasUnion.of_prune {set : DeclarationSet} {roots : NameSet}
    {members : List TypeExpr} (union : (set.prune roots).1.HasUnion members) :
    set.HasUnion members := by
  obtain ⟨d, kept, inside⟩ := union
  exact ⟨d, (mem_prune_declarations.mp kept).1, inside⟩

namespace Pass

variable {pass : Pass} {declared : NameSet} {schemas : Entries Schema}
  {outcomes : List (String × Outcome)} {before after : ResolveState} {name : String}
  {set : DeclarationSet} {members : List TypeExpr}

theorem DeclaresAll.precedes (run : pass.DeclaresAll declared schemas before outcomes after) :
    before.Precedes after := by
  induction run with
  | nil s => exact .refl s
  | skip _ _ _ ih => exact ih
  | declare _ returned _ ih => exact ((Scope.uniform_declare _ _).precedes returned).trans ih

/-- Every outcome comes from the declaration of a schema of its name, at some time of the run. -/
theorem DeclaresAll.exists_declare
    (run : pass.DeclaresAll declared schemas before outcomes after) {outcome : Outcome}
    (member : (name, outcome) ∈ outcomes) :
    ∃ schema start final, (name, schema) ∈ schemas ∧ before.Precedes start ∧
      Returns ((pass.scope name).declare schema) start outcome final ∧ final.Precedes after := by
  induction run with
  | nil => cases member
  | skip _ _ _ ih =>
    obtain ⟨schema, start, final, listed, rest⟩ := ih member
    exact ⟨schema, start, final, List.mem_cons_of_mem _ listed, rest⟩
  | @declare _ schema _ begin mid _ _ _ _ returned later ih =>
    rcases List.mem_cons.mp member with here | inside
    · cases here
      exact ⟨schema, begin, mid, List.mem_cons_self, .refl begin, returned, later.precedes⟩
    · obtain ⟨other, start, final, listed, begins, rest⟩ := ih inside
      have early := (Scope.uniform_declare _ _).precedes returned
      exact ⟨other, start, final, List.mem_cons_of_mem _ listed, early.trans begins, rest⟩

/-- The set is what the run leaves, pruned or not. -/
theorem exists_outcomes (finished : pass.run = .ok set) :
    ∃ outcomes,
      pass.DeclaresAll pass.earlier.declaredNames pass.table.schemas pass.start outcomes
        pass.final ∧
      (set = pass.assembled outcomes pass.final ∨
        set = ((pass.assembled outcomes pass.final).prune pass.roots).1) := by
  rw [run_eq] at finished
  unfold final
  split at finished
  · cases finished
  next outcomes after returned =>
    rw [returned]
    refine ⟨outcomes, declaresAll_of_returns returned, ?_⟩
    split at finished <;> cases finished
    · exact Or.inr rfl
    · exact Or.inl rfl

/-- With nothing declared before, every union is made in the run, from a node of a schema. -/
theorem exists_makesUnion (first : pass.earlier = .empty) (finished : pass.run = .ok set)
    (union : set.HasUnion members) : ∃ name schema, (name, schema) ∈ pass.table.schemas ∧
      (pass.scope name).MakesUnion schema name pass.start members pass.final := by
  obtain ⟨outcomes, run, last⟩ := exists_outcomes finished
  obtain ⟨d, member, inside⟩ : (pass.assembled outcomes pass.final).HasUnion members := by
    rcases last with rfl | rfl
    · exact union
    · exact union.of_prune
  rcases List.mem_append.mp member with old | new
  · rw [first] at old
    cases old
  · rcases mem_filterMap_finish.mp new with ⟨name, listed⟩ | ⟨_, _, -, -, rfl⟩
    · obtain ⟨schema, start, final, entry, begins, returned, ends⟩ := run.exists_declare listed
      have made := Scope.makesUnion_of_declare returned inside
      exact ⟨name, schema, entry, made.within begins ends⟩
    · -- Any value has no union inside.
      cases inside with
      | inline below => cases below

end Pass

/-- A node with alternatives resolves to the union of the first occurrences of what they resolve to,
unless it has `allOf` too, which makes it a record. Every union that a pass without a seed yields,
declared or inside a declaration, was made in this way in its run, from a node of a schema. -/
theorem union_keeps_firsts :
    (∀ (scope : Scope) (s : Schema) (typeName : String) (before : ResolveState) (t : TypeExpr)
      (after : ResolveState), s.oneOf ≠ [] ∨ s.anyOf ≠ [] →
      Returns (scope.resolve s typeName) before t after →
      (s.allOf = [] ∧ ∃ members, t = .union members s.isNullable ∧
        scope.UnionOf typeName s.alternatives before members after) ∨
      (s.allOf ≠ [] ∧ ∃ ms, t = .record ms s.isNullable)) ∧
    ∀ (r : Request) (set : DeclarationSet) (members : List TypeExpr),
      r.run none = .ok set → set.HasUnion members →
      ∃ pass, r.pass none = .ok pass ∧ ∃ name schema, (name, schema) ∈ pass.table.schemas ∧
        (pass.scope name).MakesUnion schema name pass.start members pass.final := by
  constructor
  · intro scope s typeName before t after given returned
    exact Scope.resolve_of_alternatives (Schema.alternatives_ne_nil_iff.mpr given) returned
  · intro r set members finished union
    obtain ⟨pass, prepared, last⟩ := bind_eq_ok.mp finished
    have unseeded : pass.earlier = .empty := Request.earlier_of_pass prepared
    exact ⟨pass, prepared, Pass.exists_makesUnion unseeded last union⟩

/-! ### A ticket

A ticket is given by a text, by a word or by seats, and each of its two unions has a repeat. The
enums after the repeats have the number that they have in the list. -/

namespace Ticket

open Zoo

def word (literal : String) : Schema :=
  .node { type := some "string", literals := [.text literal] } none none [] [] []

def seat : Schema :=
  .node {} none none [] [] [scalar "integer", scalar "integer", word "standing"]

def seats : Schema :=
  .node { type := some "array" } none (some seat) [] [] []

def ticket : Schema :=
  .node {} none none [] [scalar "string", scalar "string", word "free", seats] []

def request : Request :=
  .ofDocument (document [("Ticket", ticket)])

def seatMembers : List TypeExpr :=
  [.scalar .int false, .reference "TicketVariant4ItemVariant3" false]

def ticketMembers : List TypeExpr :=
  [.scalar .string false, .reference "TicketVariant3" false, .array (.union seatMembers false) false]

def set : DeclarationSet where
  declarations := [.union "Ticket" ticketMembers none]
  enums := [
    .ofLiterals "TicketVariant3" ["free"] none,
    .ofLiterals "TicketVariant4ItemVariant3" ["standing"] none]
  referenced := .ofList ["TicketVariant3", "TicketVariant4ItemVariant3"]

theorem run_request : request.run none = .ok set :=
  eq_ok_of_toOption (by decide +kernel)

theorem hasUnion_ticketMembers : set.HasUnion ticketMembers :=
  ⟨_, List.mem_singleton.mpr rfl, .own "Ticket" ticketMembers none⟩

theorem hasUnion_seatMembers : set.HasUnion seatMembers := by
  have inside : .array (.union seatMembers false) false ∈
      (Declaration.union "Ticket" ticketMembers none).types :=
    List.mem_of_getElem? (i := 2) rfl
  exact ⟨_, List.mem_singleton.mpr rfl, .inline inside (.single (List.mem_singleton.mpr rfl))⟩

def scope : Scope where
  table := { schemas := [], names := [] }
  reserved := {}
  schema := "Ticket"

/-- The state after a seat. -/
def seated : ResolveState :=
  (runFrom (scope.resolve seat "Seat") {}).2

theorem seat_returns :
    Returns (scope.resolve seat "Seat") {}
      (.union [.scalar .int false, .reference "SeatVariant3" false] false) seated :=
  Prod.ext (eq_ok_of_toOption (by decide +kernel)) rfl

end Ticket

open Ticket in
theorem ticket_keeps_firsts :
    (seat.oneOf ≠ [] ∨ seat.anyOf ≠ []) ∧
    Returns (scope.resolve seat "Seat") {}
      (.union [.scalar .int false, .reference "SeatVariant3" false] false) seated ∧
    (∃ members, TypeExpr.union [.scalar .int false, .reference "SeatVariant3" false] false =
      .union members false ∧ scope.UnionOf "Seat" seat.alternatives {} members seated) ∧
    request.run none = .ok set ∧
    ∀ members ∈ [ticketMembers, seatMembers], set.HasUnion members ∧
      ∃ pass, request.pass none = .ok pass ∧ ∃ name schema, (name, schema) ∈ pass.table.schemas ∧
        (pass.scope name).MakesUnion schema name pass.start members pass.final := by
  obtain ⟨resolved, emitted⟩ := union_keeps_firsts
  have given : seat.oneOf ≠ [] ∨ seat.anyOf ≠ [] := Or.inr nofun
  refine ⟨given, seat_returns, ?_, run_request, fun members listed => ?_⟩
  · rcases resolved scope seat "Seat" {} _ seated given seat_returns with ⟨-, made⟩ | ⟨merged, -⟩
    · exact made
    · exact absurd rfl merged
  · have union : set.HasUnion members := by
      rcases List.mem_pair.mp listed with rfl | rfl
      · exact hasUnion_ticketMembers
      · exact hasUnion_seatMembers
    exact ⟨union, emitted request set members run_request union⟩

end SchemaTypes
