import SchemaTypes.Proofs.Resolve.State

/-!
# Effects

All that a resolution does to the state is a list of effects, and the list is settled before the
resolution starts: no state changes what is resolved next, or whether it fails. Only the answers to
the requests depend on the state, and through them the result.
-/
namespace SchemaTypes

open Data Naming Resolve

/-- A change of the state. -/
inductive Effect where
  | refer (name : String)
  | request (typeName : String) (values : List String)
  /-- A schema declares an enum under its own name. -/
  | own (name : String) (values : List String) (description : Option String)

namespace Effect

def apply : Effect → ResolveState → ResolveState
  | refer name, s => s.refer name
  | request typeName values, s => s.request typeName values
  | own name values description, s =>
    { s with enums := s.enums.declareOwned name values description }

end Effect

namespace ResolveState

/-- The state after the effects, in order. -/
def perform (s : ResolveState) (es : List Effect) : ResolveState :=
  es.foldl (fun s e => e.apply s) s

/-- The name of the enum that answers a request, if it was made. -/
def enumFor? (s : ResolveState) (request : String) : Option String :=
  Entries.get? s.enums.aliases request

variable {s : ResolveState} {es fs : List Effect} {q name : String} {values : List String}

@[simp] theorem perform_nil (s : ResolveState) : s.perform [] = s := rfl

@[simp] theorem perform_cons (s : ResolveState) (e : Effect) (es : List Effect) :
    s.perform (e :: es) = (e.apply s).perform es := rfl

theorem perform_append (s : ResolveState) (es fs : List Effect) :
    s.perform (es ++ fs) = (s.perform es).perform fs :=
  List.foldl_append

/-! ### Answers -/

theorem enumFor?_request (s : ResolveState) (q : String) (values : List String) :
    (s.request q values).enumFor? q =
      some (s.enums.synthesize s.taken q values).1 :=
  EnumTable.get?_aliases_synthesize s.enums s.taken q values

/-- A request that was answered before only refers to its enum. -/
theorem request_of_known (known : s.enumFor? q = some name) :
    s.request q values = s.refer name := by
  simp only [request, EnumTable.synthesize_known known, refer]

theorem enumFor?_request_of_ne {other : String} (different : other ≠ q) (values : List String) :
    (s.request other values).enumFor? q = s.enumFor? q := by
  simp only [enumFor?, request, EnumTable.synthesize]
  split
  · rfl
  · exact Entries.get?_insert_of_ne different

/-- The enum of a schema's own answers no request. -/
theorem enumFor?_own (s : ResolveState) (description : Option String) :
    ((Effect.own name values description).apply s).enumFor? q = s.enumFor? q := by
  simp only [enumFor?, Effect.apply, EnumTable.declareOwned]
  split <;> rfl

/-- An answer that was given stands. -/
theorem enumFor?_apply (e : Effect) (answered : s.enumFor? q = some name) :
    (e.apply s).enumFor? q = some name := by
  cases e with
  | refer => exact answered
  | request other values =>
    rw [Effect.apply]
    -- Only a request for the same name could answer it anew, and that one finds the answer.
    by_cases same : other = q
    · rwa [same, request_of_known answered]
    · rwa [enumFor?_request_of_ne same]
  | own other values description => rwa [enumFor?_own]

theorem enumFor?_perform (es : List Effect) (answered : s.enumFor? q = some name) :
    (s.perform es).enumFor? q = some name := by
  induction es generalizing s with
  | nil => exact answered
  | cons e rest ih => exact ih (enumFor?_apply e answered)

/-- A new answer is a variant of the name that was free. -/
theorem enumFor?_apply_cases (e : Effect) (answered : (e.apply s).enumFor? q = some name) :
    s.enumFor? q = some name ∨ name ∉ s.taken.taken ∧ NameTable.IsVariant q name := by
  cases e with
  | refer => exact Or.inl answered
  | request other values =>
    rw [Effect.apply] at answered
    by_cases same : other = q
    · subst same
      cases known : s.enumFor? other with
      | some enum =>
        rw [request_of_known known] at answered
        exact Or.inl (known.symm.trans answered)
      | none =>
        have new : Entries.get? s.enums.aliases other = none := known
        rw [enumFor?_request, EnumTable.synthesize, new] at answered
        obtain rfl : s.taken.freeName other = name := Option.some.inj answered
        exact Or.inr ⟨NameTable.freeName_not_mem, NameTable.isVariant_freeName⟩
    · rw [enumFor?_request_of_ne same] at answered
      exact Or.inl answered
  | own other values description =>
    rw [enumFor?_own] at answered
    exact Or.inl answered

theorem mem_taken_apply (e : Effect) (used : name ∈ s.taken.taken) :
    name ∈ (e.apply s).taken.taken := by
  cases e with
  | refer | own => exact used
  | request typeName values =>
    simp only [Effect.apply, request, EnumTable.synthesize]
    split
    · exact used
    · exact NameTable.mem_claim_of_mem typeName used

theorem enumFor?_perform_cases (es : List Effect)
    (answered : (s.perform es).enumFor? q = some name) :
    s.enumFor? q = some name ∨ name ∉ s.taken.taken ∧ NameTable.IsVariant q name := by
  induction es generalizing s with
  | nil => exact Or.inl answered
  | cons e rest ih =>
    rcases ih answered with early | ⟨free, variant⟩
    · exact enumFor?_apply_cases e early
    · exact Or.inr ⟨mt (mem_taken_apply e) free, variant⟩

/-- Every request is answered in the end. -/
theorem exists_enumFor?_perform (asked : .request q values ∈ es) :
    ∃ name, (s.perform es).enumFor? q = some name := by
  induction es generalizing s with
  | nil => cases asked
  | cons e rest ih =>
    rcases List.mem_cons.mp asked with rfl | later
    · exact ⟨_, enumFor?_perform rest (enumFor?_request s q values)⟩
    · exact ih later

/-! ### Enums -/

theorem mem_names_apply (e : Effect) (declared : name ∈ s.enums.names) :
    name ∈ (e.apply s).enums.names := by
  cases e with
  | refer => exact declared
  | request typeName values =>
    simp only [Effect.apply, request, EnumTable.synthesize]
    split
    · exact declared
    · exact Entries.mem_keys_insert.mpr (Or.inr declared)
  | own name values description =>
    simp only [Effect.apply, EnumTable.declareOwned]
    split
    · exact declared
    · exact Entries.mem_keys_insert.mpr (Or.inr declared)

theorem mem_names_perform (es : List Effect) (declared : name ∈ s.enums.names) :
    name ∈ (s.perform es).enums.names := by
  induction es generalizing s with
  | nil => exact declared
  | cons e rest ih => exact ih (mem_names_apply e declared)

theorem mem_names_perform_of_own {description : Option String}
    (owned : .own name values description ∈ es) : name ∈ (s.perform es).enums.names := by
  induction es generalizing s with
  | nil => cases owned
  | cons e rest ih =>
    rcases List.mem_cons.mp owned with rfl | later
    · exact mem_names_perform rest (EnumTable.declareOwned_mem ..)
    · exact ih later

/-- Requests that were answered before change no enum. -/
theorem enums_perform_of_known
    (known : ∀ q values, .request q values ∈ es → ∃ name, s.enumFor? q = some name)
    (noneOwned : ∀ name values description, .own name values description ∉ es) :
    (s.perform es).enums = s.enums := by
  induction es generalizing s with
  | nil => rfl
  | cons e rest ih =>
    have same : (e.apply s).enums = s.enums := by
      cases e with
      | refer => rfl
      | request q values =>
        obtain ⟨name, answered⟩ := known q values List.mem_cons_self
        rw [Effect.apply, request_of_known answered, refer]
      | own name values description =>
        exact absurd List.mem_cons_self (noneOwned name values description)
    rw [perform_cons, ih, same]
    · intro q values asked
      obtain ⟨name, answered⟩ := known q values (List.mem_cons_of_mem _ asked)
      exact ⟨name, enumFor?_apply e answered⟩
    · exact fun name values description listed =>
        noneOwned name values description (List.mem_cons_of_mem _ listed)

end ResolveState

open ResolveState

variable {α β ι κ : Type}

/-- From every state, the computation performs the effects and then fails with the error, or returns
the value for the answers to its requests. -/
structure Performs (m : Resolve α) (es : List Effect)
    (result : Except Error ((String → Option String) → α)) : Prop where
  run : ∀ before, runFrom m before =
    (result.map fun value => value (before.perform es).enumFor?, before.perform es)
  /-- No other answers count. -/
  answers : ∀ value ∈ result.toOption, ∀ f g : String → Option String,
    (∀ q values, .request q values ∈ es → f q = g q) → value f = value g

theorem performs_pure (a : α) : Performs (pure a) [] (.ok fun _ => a) :=
  ⟨fun _ => rfl, fun _ given _ _ _ => Option.mem_some.mp given ▸ rfl⟩

theorem performs_throw (e : Error) : Performs (throw e : Resolve α) [] (.error e) :=
  ⟨fun _ => rfl, nofun⟩

/-- A change that needs no answer. -/
theorem performs_modify (e : Effect) : Performs (modify e.apply) [e] (.ok fun _ => ⟨⟩) :=
  ⟨fun _ => rfl, fun _ _ _ _ _ => rfl⟩

theorem Performs.bind_error {m : Resolve α} {es : List Effect} {e : Error}
    (first : Performs m es (.error e)) (f : α → Resolve β) : Performs (m >>= f) es (.error e) :=
  ⟨fun before => by rw [runFrom_bind, first.run]; rfl, nofun⟩

/-- What comes second may use the value that comes first, but no other effects may hang on it. -/
theorem Performs.bind {m : Resolve α} {f : α → Resolve β} {es fs : List Effect}
    {value : (String → Option String) → α}
    {result : Except Error (α → (String → Option String) → β)}
    (first : Performs m es (.ok value))
    (second : ∀ a, Performs (f a) fs (result.map fun later => later a)) :
    Performs (m >>= f) (es ++ fs) (result.map fun later g => later (value g) g) := by
  refine ⟨fun before => ?_, ?_⟩
  · rw [runFrom_bind, first.run, perform_append]
    -- The answers that the first value is made from still stand after the second part.
    have same : value (before.perform es).enumFor? =
        value ((before.perform es).perform fs).enumFor? := by
      refine first.answers value rfl _ _ fun q values asked => ?_
      obtain ⟨name, answered⟩ := exists_enumFor?_perform (s := before) asked
      rw [answered, enumFor?_perform fs answered]
    change runFrom (f (value (before.perform es).enumFor?)) _ = _
    rw [(second _).run, same]
    cases result <;> rfl
  · rintro given member f g agree
    cases result with
    | error => cases member
    | ok later =>
      obtain rfl := Option.mem_some.mp member
      have same := first.answers value rfl f g fun q values asked =>
        agree q values (List.mem_append_left _ asked)
      have rest := (second (value g)).answers (later (value g)) rfl f g fun q values asked =>
        agree q values (List.mem_append_right _ asked)
      change later (value f) f = later (value g) g
      rw [same, rest]

/-! ### Families -/

/-- The computations of a family perform the same effects, and then all return or all fail with the
same error. If they return, the effects are the ones that are given. -/
def Uniform (m : ι → Resolve α) (causes : Effect → Prop) : Prop :=
  ∃ es, ∃ result : Except Error (ι → (String → Option String) → α),
    (∀ i, Performs (m i) es (result.map fun value => value i)) ∧
      ∀ value ∈ result.toOption, ∀ e, e ∈ es ↔ causes e

namespace Uniform

variable {m : ι → Resolve α} {causes later : Effect → Prop}

theorem pure (a : ι → α) : Uniform (fun i => Pure.pure (a i)) fun _ => False :=
  ⟨[], .ok fun i _ => a i, fun i => performs_pure (a i), by simp⟩

theorem throw (e : Error) (causes : Effect → Prop) :
    Uniform (fun _ : ι => (MonadExcept.throw e : Resolve α)) causes :=
  ⟨[], .error e, fun _ => performs_throw e, nofun⟩

theorem effect (e : Effect) : Uniform (fun _ : ι => modify e.apply) (· = e) :=
  ⟨[e], .ok fun _ _ => ⟨⟩, fun _ => performs_modify e, fun _ _ _ => List.mem_singleton⟩

theorem bind {f : ι → α → Resolve β} (first : Uniform m causes)
    (second : Uniform (fun p : ι × α => f p.1 p.2) later) :
    Uniform (fun i => m i >>= f i) fun e => causes e ∨ later e := by
  obtain ⟨es, result, performs, listed⟩ := first
  cases result with
  | error e => exact ⟨es, .error e, fun i => (performs i).bind_error (f i), nofun⟩
  | ok value =>
    obtain ⟨fs, last, performsLater, listedLater⟩ := second
    refine ⟨es ++ fs, last.map fun rest i g => rest (i, value i g) g, fun i => ?_, ?_⟩
    · have both : Performs (m i >>= f i) (es ++ fs)
          ((last.map fun rest a => rest (i, a)).map fun rest g => rest (value i g) g) := by
        refine (performs i).bind fun a => ?_
        cases last <;> exact performsLater (i, a)
      cases last <;> exact both
    · rintro given member e
      cases last with
      | error => cases member
      | ok rest =>
        rw [List.mem_append, listed value rfl, listedLater rest rfl]

/-- What does not need the state may decide what comes next. -/
theorem lift_bind {x : Except Error β} {f : ι → β → Resolve α}
    (rest : ∀ b, x = .ok b → Uniform (fun i => f i b) causes) :
    Uniform (fun i => liftM x >>= f i) causes := by
  cases x with
  | error e => exact throw e causes
  | ok b => exact rest b rfl

theorem comp (uniform : Uniform m causes) (h : κ → ι) : Uniform (fun k => m (h k)) causes := by
  obtain ⟨es, result, performs, listed⟩ := uniform
  refine ⟨es, result.map fun value k => value (h k), fun k => ?_, ?_⟩
  · cases result <;> exact performs (h k)
  · rintro value member
    cases result with
    | error => cases member
    | ok value => exact listed value rfl

/-- What returns from one state returns from every state, and always with the same effects. -/
theorem returns {m : Resolve α} (uniform : Uniform (fun _ : Unit => m) causes)
    {s t : ResolveState} {a : α} (returned : Returns m s a t) :
    ∃ es, (∀ e, e ∈ es ↔ causes e) ∧ ∀ before, ∃ b, Returns m before b (before.perform es) := by
  obtain ⟨es, result, performs, listed⟩ := uniform
  cases result with
  | error e => cases ((performs ⟨⟩).run s).symm.trans returned
  | ok value => exact ⟨es, listed value rfl, fun before => ⟨_, (performs ⟨⟩).run before⟩⟩

theorem congr (uniform : Uniform m causes) (same : ∀ e, causes e ↔ later e) : Uniform m later := by
  obtain ⟨es, result, performs, listed⟩ := uniform
  exact ⟨es, result, performs, fun value member e => (listed value member e).trans (same e)⟩

theorem map (uniform : Uniform m causes) (h : ι → α → β) :
    Uniform (fun i => m i >>= fun a => Pure.pure (h i a)) causes :=
  (uniform.bind (pure fun p : ι × α => h p.1 p.2)).congr fun _ => or_iff_left id

end Uniform

end SchemaTypes
