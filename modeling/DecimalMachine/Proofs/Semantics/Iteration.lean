/-!
# Iterated steps and their simulation

A system takes steps until one of them ends it.  One system simulates another
when every step of the one is matched by some steps of the other, none of them
only where a measure on the simulated state decreases.  Then each of the two
ends if and only if the other does, and every state of the one is reached by
the other, so neither can go on silently where the other has come to an end.
-/

namespace DecimalMachine.Semantics

variable {α β ε δ : Type}

/-- The state after so many steps, unless one of them ends the system. -/
def after (step : α → Except ε α) : Nat → α → Except ε α
  | 0, state => .ok state
  | n + 1, state =>
      match step state with
      | .ok next => after step n next
      | .error ending => .error ending

theorem after_succ_of_ok {step : α → Except ε α} {state next : α} (taken : step state = .ok next)
    (n : Nat) : after step (n + 1) state = after step n next := by
  simp only [after, taken]

theorem after_succ_of_error {step : α → Except ε α} {state : α} {ending : ε}
    (ended : step state = .error ending) (n : Nat) :
    after step (n + 1) state = .error ending := by
  simp only [after, ended]

theorem after_one (step : α → Except ε α) (state : α) : after step 1 state = step state := by
  cases taken : step state <;> simp [after, taken]

/-- Steps after steps are steps. -/
theorem after_add {step : α → Except ε α} {m : Nat} {state middle : α}
    (first : after step m state = .ok middle) (n : Nat) :
    after step (m + n) state = after step n middle := by
  induction m generalizing state with
  | zero =>
      cases first
      rw [Nat.zero_add]
  | succ m ih =>
      cases taken : step state with
      | error ending =>
          rw [after_succ_of_error taken] at first
          cases first
      | ok next =>
          rw [after_succ_of_ok taken] at first
          rw [Nat.add_right_comm, after_succ_of_ok taken]
          exact ih first

/-- A system that has ended stays at its end. -/
theorem after_add_of_error {step : α → Except ε α} {m : Nat} {state : α} {ending : ε}
    (ended : after step m state = .error ending) (n : Nat) :
    after step (m + n) state = .error ending := by
  induction m generalizing state with
  | zero => cases ended
  | succ m ih =>
      rw [Nat.add_right_comm]
      cases taken : step state with
      | error other =>
          rw [after_succ_of_error taken] at ended ⊢
          exact ended
      | ok next =>
          rw [after_succ_of_ok taken] at ended ⊢
          exact ih ended

/-- A system ends in one way only. -/
theorem ending_unique {step : α → Except ε α} {m n : Nat} {state : α} {first second : ε}
    (one : after step m state = .error first) (other : after step n state = .error second) :
    first = second := by
  have joined := after_add_of_error one n
  rw [Nat.add_comm, after_add_of_error other m] at joined
  exact (Except.error.inj joined).symm

/-- An end comes later than every state that is reached. -/
theorem lt_of_after {step : α → Except ε α} {m n : Nat} {state reached : α} {ending : ε}
    (one : after step m state = .ok reached) (other : after step n state = .error ending) :
    m < n := by
  apply Nat.lt_of_not_le
  intro early
  have late := after_add_of_error other (m - n)
  rw [Nat.add_sub_cancel' early, one] at late
  cases late

/-- What ends a system is the step from the last state that it reaches. -/
theorem exists_last_of_after {step : α → Except ε α} {n : Nat} {state : α} {ending : ε}
    (ended : after step n state = .error ending) :
    ∃ m last, after step m state = .ok last ∧ step last = .error ending := by
  induction n generalizing state with
  | zero => cases ended
  | succ n ih =>
      cases taken : step state with
      | error other =>
          rw [after_succ_of_error taken] at ended
          cases ended
          exact ⟨0, state, rfl, taken⟩
      | ok next =>
          rw [after_succ_of_ok taken] at ended
          obtain ⟨m, last, reached, ends⟩ := ih ended
          exact ⟨m + 1, last, (after_succ_of_ok taken m).trans reached, ends⟩

/-- A system that takes the steps of another reaches its states. -/
theorem after_of_imp {step : α → Except ε α} {other : α → Except δ α}
    (takes : ∀ {state next}, step state = .ok next → other state = .ok next) {n : Nat}
    {state reached : α} (run : after step n state = .ok reached) :
    after other n state = .ok reached := by
  induction n generalizing state with
  | zero =>
      cases run
      rfl
  | succ n ih =>
      cases taken : step state with
      | error ending =>
          rw [after_succ_of_error taken] at run
          cases run
      | ok next =>
          rw [after_succ_of_ok taken] at run
          rw [after_succ_of_ok (takes taken)]
          exact ih run

/-! ## Simulation -/

/-- The second system simulates the first: related states step to related
states and end with related ends. -/
structure Simulation (first : α → Except ε α) (second : β → Except δ β)
    (Related : α → β → Prop) (RelatedEnd : ε → δ → Prop) (measure : α → Nat) : Prop where
  step : ∀ {a b next}, Related a b → first a = .ok next →
    ∃ n matched, after second n b = .ok matched ∧ Related next matched ∧
      (0 < n ∨ measure next < measure a)
  ending : ∀ {a b ending}, Related a b → first a = .error ending →
    ∃ n matched, after second n b = .error matched ∧ RelatedEnd ending matched

namespace Simulation

variable {first : α → Except ε α} {second : β → Except δ β} {Related : α → β → Prop}
  {RelatedEnd : ε → δ → Prop} {measure : α → Nat}

/-- Every state of the simulated system has a related one. -/
theorem reaches (simulation : Simulation first second Related RelatedEnd measure)
    {n : Nat} {a reached : α} {b : β} (related : Related a b)
    (run : after first n a = .ok reached) :
    ∃ k matched, after second k b = .ok matched ∧ Related reached matched := by
  induction n generalizing a b with
  | zero =>
      cases run
      exact ⟨0, b, rfl, related⟩
  | succ n ih =>
      cases taken : first a with
      | error ending =>
          rw [after_succ_of_error taken] at run
          cases run
      | ok next =>
          rw [after_succ_of_ok taken] at run
          obtain ⟨k, middle, steps, relatedNext, _⟩ := simulation.step related taken
          obtain ⟨j, matched, more, relatedReached⟩ := ih relatedNext run
          exact ⟨k + j, matched, (after_add steps j).trans more, relatedReached⟩

/-- The simulating system ends where the simulated one does. -/
theorem ends (simulation : Simulation first second Related RelatedEnd measure)
    {n : Nat} {a : α} {b : β} {ending : ε} (related : Related a b)
    (run : after first n a = .error ending) :
    ∃ k matched, after second k b = .error matched ∧ RelatedEnd ending matched := by
  induction n generalizing a b with
  | zero => cases run
  | succ n ih =>
      cases taken : first a with
      | error other =>
          rw [after_succ_of_error taken] at run
          cases run
          exact simulation.ending related taken
      | ok next =>
          rw [after_succ_of_ok taken] at run
          obtain ⟨k, middle, steps, relatedNext, _⟩ := simulation.step related taken
          obtain ⟨j, matched, more, relatedEnd⟩ := ih relatedNext run
          exact ⟨k + j, matched, (after_add steps j).trans more, relatedEnd⟩

/-- From related states the simulating system either ends or takes a step to a
related state. The measure bounds the steps that it does not notice. -/
theorem advances (simulation : Simulation first second Related RelatedEnd measure)
    {a : α} {b : β} (related : Related a b) :
    (∃ n state k matched, after first n a = .ok state ∧ after second k b = .ok matched ∧
      Related state matched ∧ 0 < k) ∨
    ∃ n ending k matched, after first n a = .error ending ∧ after second k b = .error matched ∧
      RelatedEnd ending matched := by
  generalize size : measure a = bound
  induction bound using Nat.strongRecOn generalizing a b with
  | ind bound smaller =>
      cases taken : first a with
      | error ending =>
          obtain ⟨k, matched, ended, relatedEnd⟩ := simulation.ending related taken
          exact .inr ⟨1, ending, k, matched, (after_one first a).trans taken, ended, relatedEnd⟩
      | ok next =>
          obtain ⟨k, middle, steps, relatedNext, progress⟩ := simulation.step related taken
          rcases Nat.eq_zero_or_pos k with rfl | positive
          · cases steps
            have decreased : measure next < bound := by
              rw [← size]
              exact progress.resolve_left (Nat.lt_irrefl 0)
            rcases smaller (measure next) decreased relatedNext rfl with
              ⟨n, state, j, matched, run, more⟩ | ⟨n, ending, j, matched, run, more⟩
            · exact .inl ⟨n + 1, state, j, matched, (after_succ_of_ok taken n).trans run, more⟩
            · exact .inr ⟨n + 1, ending, j, matched, (after_succ_of_ok taken n).trans run, more⟩
          · exact .inl ⟨1, next, k, middle, (after_one first a).trans taken, steps, relatedNext,
              positive⟩

/-- The simulated system catches up with any number of steps of the simulating
one, unless both end. -/
theorem catches_up (simulation : Simulation first second Related RelatedEnd measure)
    {a : α} {b : β} (related : Related a b) (k : Nat) :
    (∃ n state j matched, after first n a = .ok state ∧ after second j b = .ok matched ∧
      Related state matched ∧ k ≤ j) ∨
    ∃ n ending j matched, after first n a = .error ending ∧ after second j b = .error matched ∧
      RelatedEnd ending matched := by
  induction k with
  | zero => exact .inl ⟨0, a, 0, b, rfl, rfl, related, Nat.le_refl 0⟩
  | succ k ih =>
      rcases ih with ⟨n, state, j, middle, run, steps, relatedMiddle, enough⟩ | ended
      · rcases simulation.advances relatedMiddle with
          ⟨m, next, i, matched, more, moreSteps, relatedNext, positive⟩ |
          ⟨m, ending, i, matched, more, moreSteps, relatedEnd⟩
        · exact .inl ⟨n + m, next, j + i, matched, (after_add run m).trans more,
            (after_add steps i).trans moreSteps, relatedNext, Nat.add_le_add enough positive⟩
        · exact .inr ⟨n + m, ending, j + i, matched, (after_add run m).trans more,
            (after_add steps i).trans moreSteps, relatedEnd⟩
      · exact .inr ended

/-- The simulated system ends where the simulating one does. -/
theorem ends_of_ends (simulation : Simulation first second Related RelatedEnd measure)
    {k : Nat} {a : α} {b : β} {matched : δ} (related : Related a b)
    (run : after second k b = .error matched) :
    ∃ n ending, after first n a = .error ending ∧ RelatedEnd ending matched := by
  rcases simulation.catches_up related k with
    ⟨_, _, j, _, _, steps, _, enough⟩ | ⟨n, ending, j, other, ended, steps, relatedEnd⟩
  · exact absurd (lt_of_after steps run) (Nat.not_lt_of_le enough)
  · cases ending_unique run steps
    exact ⟨n, ending, ended, relatedEnd⟩

/-- Every state of the simulating system goes on to one that is related to a
state of the simulated system, or both end. -/
theorem overtakes (simulation : Simulation first second Related RelatedEnd measure)
    {k : Nat} {a : α} {b reached : β} (related : Related a b)
    (run : after second k b = .ok reached) :
    (∃ n state j matched, after first n a = .ok state ∧ after second j reached = .ok matched ∧
      Related state matched) ∨
    ∃ n ending j matched, after first n a = .error ending ∧
      after second j reached = .error matched ∧ RelatedEnd ending matched := by
  rcases simulation.catches_up related k with
    ⟨n, state, j, matched, reachedState, steps, relatedState, enough⟩ |
    ⟨n, ending, j, matched, ended, steps, relatedEnd⟩
  · refine .inl ⟨n, state, j - k, matched, reachedState, ?_, relatedState⟩
    rw [← after_add run, Nat.add_sub_cancel' enough, steps]
  · refine .inr ⟨n, ending, j - k, matched, ended, ?_, relatedEnd⟩
    rw [← after_add run, Nat.add_sub_cancel' (Nat.le_of_lt (lt_of_after run steps)), steps]

end Simulation

/-! ## Step by step -/

/-- The second system takes a step whenever the first one does. -/
structure Lockstep (first : α → Except ε α) (second : β → Except δ β)
    (Related : α → β → Prop) (RelatedEnd : ε → δ → Prop) : Prop where
  step : ∀ {a b next}, Related a b → first a = .ok next →
    ∃ matched, second b = .ok matched ∧ Related next matched
  ending : ∀ {a b ending}, Related a b → first a = .error ending →
    ∃ matched, second b = .error matched ∧ RelatedEnd ending matched

namespace Lockstep

variable {γ ζ : Type} {first : α → Except ε α} {second : β → Except δ β}
  {third : γ → Except ζ γ} {Related : α → β → Prop} {RelatedEnd : ε → δ → Prop}

theorem reaches (lockstep : Lockstep first second Related RelatedEnd) {n : Nat} {a reached : α}
    {b : β} (related : Related a b) (run : after first n a = .ok reached) :
    ∃ matched, after second n b = .ok matched ∧ Related reached matched := by
  induction n generalizing a b with
  | zero =>
      cases run
      exact ⟨b, rfl, related⟩
  | succ n ih =>
      cases taken : first a with
      | error ending =>
          rw [after_succ_of_error taken] at run
          cases run
      | ok next =>
          rw [after_succ_of_ok taken] at run
          obtain ⟨middle, step, relatedNext⟩ := lockstep.step related taken
          obtain ⟨matched, steps, relatedReached⟩ := ih relatedNext run
          exact ⟨matched, (after_succ_of_ok step n).trans steps, relatedReached⟩

theorem ends (lockstep : Lockstep first second Related RelatedEnd) {n : Nat} {a : α} {b : β}
    {ending : ε} (related : Related a b) (run : after first n a = .error ending) :
    ∃ matched, after second n b = .error matched ∧ RelatedEnd ending matched := by
  induction n generalizing a b with
  | zero => cases run
  | succ n ih =>
      cases taken : first a with
      | error other =>
          rw [after_succ_of_error taken] at run
          cases run
          obtain ⟨matched, ended, relatedEnd⟩ := lockstep.ending related taken
          exact ⟨matched, after_succ_of_error ended n, relatedEnd⟩
      | ok next =>
          rw [after_succ_of_ok taken] at run
          obtain ⟨middle, step, relatedNext⟩ := lockstep.step related taken
          obtain ⟨matched, steps, relatedEnd⟩ := ih relatedNext run
          exact ⟨matched, (after_succ_of_ok step n).trans steps, relatedEnd⟩

/-- What simulates a system is itself simulated step by step by another. -/
theorem simulation {Closer : β → γ → Prop} {CloserEnd : δ → ζ → Prop} {measure : α → Nat}
    (simulation : Simulation first second Related RelatedEnd measure)
    (lockstep : Lockstep second third Closer CloserEnd) :
    Simulation first third (fun a c => ∃ b, Related a b ∧ Closer b c)
      (fun ending other => ∃ middle, RelatedEnd ending middle ∧ CloserEnd middle other)
      measure where
  step := by
    rintro a c next ⟨b, related, closer⟩ taken
    obtain ⟨n, middle, steps, relatedNext, progress⟩ := simulation.step related taken
    obtain ⟨matched, run, closerNext⟩ := lockstep.reaches closer steps
    exact ⟨n, matched, run, ⟨middle, relatedNext, closerNext⟩, progress⟩
  ending := by
    rintro a c ending ⟨b, related, closer⟩ taken
    obtain ⟨n, middle, steps, relatedEnd⟩ := simulation.ending related taken
    obtain ⟨matched, run, closerEnd⟩ := lockstep.ends closer steps
    exact ⟨n, matched, run, middle, relatedEnd, closerEnd⟩

end Lockstep

end DecimalMachine.Semantics
