/-!
# Outcomes

An operation that can fail is opened up at its success: what was bound to a
value, or mapped from one, succeeded because there was such a value.  Its error
is that of the first part that failed.

Two outcomes correspond if both are values or both are errors, and these are
related.  Outcomes that are bound together correspond if their parts do.
-/

namespace DecimalMachine

variable {ε α β : Type}

theorem bind_eq_ok_iff {outcome : Except ε α} {next : α → Except ε β} {result : β} :
    (outcome >>= next) = .ok result ↔ ∃ value, outcome = .ok value ∧ next value = .ok result := by
  cases outcome <;> simp [bind, Except.bind]

theorem bind_eq_error_iff {outcome : Except ε α} {next : α → Except ε β} {error : ε} :
    (outcome >>= next) = .error error ↔
      outcome = .error error ∨ ∃ value, outcome = .ok value ∧ next value = .error error := by
  cases outcome <;> simp [bind, Except.bind]

theorem map_eq_ok_iff {outcome : Except ε α} {f : α → β} {result : β} :
    f <$> outcome = .ok result ↔ ∃ value, outcome = .ok value ∧ f value = result := by
  cases outcome <;> simp [Functor.map, Except.map]

theorem map_eq_error_iff {outcome : Except ε α} {f : α → β} {error : ε} :
    f <$> outcome = .error error ↔ outcome = .error error := by
  cases outcome <;> simp [Functor.map, Except.map]

theorem mapError_eq_ok_iff {δ : Type} {outcome : Except ε α} {f : ε → δ} {value : α} :
    outcome.mapError f = .ok value ↔ outcome = .ok value := by
  cases outcome with
  | ok result =>
      constructor
      · rintro ⟨⟩
        rfl
      · rintro ⟨⟩
        rfl
  | error cause =>
      constructor
      · rintro ⟨⟩
      · rintro ⟨⟩

theorem mapError_eq_error_iff {δ : Type} {outcome : Except ε α} {f : ε → δ} {error : δ} :
    outcome.mapError f = .error error ↔ ∃ cause, outcome = .error cause ∧ f cause = error := by
  cases outcome with
  | ok value =>
      constructor
      · rintro ⟨⟩
      · rintro ⟨_, ⟨⟩, _⟩
  | error cause =>
      constructor
      · rintro ⟨⟩
        exact ⟨cause, rfl, rfl⟩
      · rintro ⟨_, ⟨⟩, rfl⟩
        rfl

theorem of_toOption_map_eq_some {outcome : Except ε α} {f : α → β} {result : β}
    (mapped : (outcome.map f).toOption = some result) :
    ∃ value, outcome = .ok value ∧ f value = result := by
  cases outcome with
  | ok value => exact ⟨value, rfl, Option.some.inj mapped⟩
  | error error => cases mapped

/-- Every item of a list is mapped if and only if each of them can be. -/
theorem exists_mapM_eq_ok_iff {f : α → Except ε β} {items : List α} :
    (∃ results, items.mapM f = .ok results) ↔ ∀ item ∈ items, ∃ result, f item = .ok result := by
  induction items with
  | nil => simp [pure, Except.pure]
  | cons first rest ih =>
      simp only [List.mapM_cons, bind_eq_ok_iff, List.forall_mem_cons, ← ih]
      constructor
      · rintro ⟨results, result, head, others, tail, _⟩
        exact ⟨⟨result, head⟩, others, tail⟩
      · rintro ⟨⟨result, head⟩, others, tail⟩
        exact ⟨result :: others, result, head, others, tail, rfl⟩

/-- The error of a list is that of the first of its items that fails. -/
theorem mapM_eq_error_iff {f : α → Except ε β} {items : List α} {error : ε} :
    items.mapM f = .error error ↔ ∃ above item below, items = above ++ item :: below ∧
      (∀ other ∈ above, ∃ result, f other = .ok result) ∧ f item = .error error := by
  induction items with
  | nil =>
      constructor
      · rintro ⟨⟩
      · rintro ⟨above, item, below, split, _⟩
        exact absurd split (by simp)
  | cons first rest ih =>
      rw [List.mapM_cons, bind_eq_error_iff]
      constructor
      · rintro (here | ⟨result, head, failed⟩)
        · exact ⟨[], first, rest, rfl, by simp, here⟩
        · rw [bind_eq_error_iff, ih] at failed
          rcases failed with ⟨above, item, below, rfl, fine, failed⟩ | ⟨_, _, ⟨⟩⟩
          exact ⟨first :: above, item, below, rfl,
            List.forall_mem_cons.mpr ⟨⟨result, head⟩, fine⟩, failed⟩
      · rintro ⟨above, item, below, split, fine, failed⟩
        cases above with
        | nil =>
            cases split
            exact .inl failed
        | cons head above =>
            cases split
            obtain ⟨⟨result, head⟩, fine⟩ := List.forall_mem_cons.mp fine
            exact .inr ⟨result, head, bind_eq_error_iff.mpr (.inl
              (ih.mpr ⟨above, item, below, rfl, fine, failed⟩))⟩

/-- The error of a list is that of one of its items. -/
theorem exists_of_mapM_eq_error {f : α → Except ε β} {items : List α} {error : ε}
    (failed : items.mapM f = .error error) : ∃ item ∈ items, f item = .error error := by
  obtain ⟨above, item, below, rfl, _, failed⟩ := mapM_eq_error_iff.mp failed
  exact ⟨item, by simp, failed⟩

/-! ## Corresponding outcomes -/

/-- Both outcomes are related values, or both are related errors. -/
inductive Corresponds {ε δ α β : Type} (OnError : ε → δ → Prop) (OnValue : α → β → Prop) :
    Except ε α → Except δ β → Prop where
  | ok {value : α} {other : β} (values : OnValue value other) :
      Corresponds OnError OnValue (.ok value) (.ok other)
  | error {error : ε} {other : δ} (errors : OnError error other) :
      Corresponds OnError OnValue (.error error) (.error other)

namespace Corresponds

variable {ε δ α β γ ρ : Type} {OnError : ε → δ → Prop} {OnValue : α → β → Prop}
  {OnResult : γ → ρ → Prop} {outcome : Except ε α} {other : Except δ β}

theorem bind {next : α → Except ε γ} {otherNext : β → Except δ ρ}
    (first : Corresponds OnError OnValue outcome other)
    (second : ∀ value result, OnValue value result →
      Corresponds OnError OnResult (next value) (otherNext result)) :
    Corresponds OnError OnResult (outcome >>= next) (other >>= otherNext) := by
  cases first with
  | ok values => exact second _ _ values
  | error errors => exact .error errors

theorem map {f : α → γ} {g : β → ρ} (first : Corresponds OnError OnValue outcome other)
    (second : ∀ value result, OnValue value result → OnResult (f value) (g result)) :
    Corresponds OnError OnResult (f <$> outcome) (g <$> other) := by
  cases first with
  | ok values => exact .ok (second _ _ values)
  | error errors => exact .error errors

/-- Items that are mapped one by one to corresponding outcomes have corresponding
outcomes together. -/
theorem mapM {ι : Type} {f : ι → Except ε α} {g : ι → Except δ β} {items : List ι}
    (each : ∀ item ∈ items, Corresponds OnError OnValue (f item) (g item)) :
    Corresponds OnError (fun _ _ => True) (items.mapM f) (items.mapM g) := by
  induction items with
  | nil => exact .ok trivial
  | cons first rest ih =>
      rw [List.mapM_cons, List.mapM_cons]
      refine (each first List.mem_cons_self).bind fun _ _ _ => ?_
      refine (ih fun item member => each item (List.mem_cons_of_mem first member)).bind ?_
      exact fun _ _ _ => .ok trivial

theorem mono {Wider : ε → δ → Prop} {Looser : α → β → Prop}
    (both : Corresponds OnError OnValue outcome other)
    (errors : ∀ error other, OnError error other → Wider error other)
    (values : ∀ value other, OnValue value other → Looser value other) :
    Corresponds Wider Looser outcome other := by
  cases both with
  | ok same => exact .ok (values _ _ same)
  | error same => exact .error (errors _ _ same)

theorem refl {OnError : ε → ε → Prop} (errors : ∀ error, OnError error error)
    (outcome : Except ε α) : Corresponds OnError Eq outcome outcome := by
  cases outcome with
  | ok value => exact .ok rfl
  | error error => exact .error (errors error)

theorem exists_ok_iff (first : Corresponds OnError OnValue outcome other) :
    (∃ value, outcome = .ok value) ↔ ∃ result, other = .ok result := by
  cases first <;> simp

end Corresponds

end DecimalMachine
