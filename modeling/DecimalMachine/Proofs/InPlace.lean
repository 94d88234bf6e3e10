/-!
# Programs that work in place

A program that works in place changes its state step by step, and a failure leaves
what was changed before it.  It changes its state wholly or not at all if it is equal
to one that gives the new state only when it succeeds.
-/

namespace DecimalMachine

variable {ε σ τ α : Type}

/-- The program that changes its state wholly or not at all. -/
def wholly (next : σ → Except ε (α × σ)) : EStateM ε σ α := fun state =>
  match next state with
  | .ok (result, changed) => .ok result changed
  | .error error => .error error state

/-- The program that works on a part of its state, which keeps what a failure
leaves there. -/
def within (part : σ → τ) (put : σ → τ → σ) (program : EStateM ε τ α) : EStateM ε σ α :=
  fun state =>
    match program (part state) with
    | .ok result changed => .ok result (put state changed)
    | .error error changed => .error error (put state changed)

theorem wholly_eq_ok_iff {next : σ → Except ε (α × σ)} {state changed : σ} {result : α} :
    (wholly next).run state = .ok result changed ↔ next state = .ok (result, changed) := by
  unfold EStateM.run wholly
  cases next state <;> simp [Prod.ext_iff]

theorem wholly_eq_error_iff {next : σ → Except ε (α × σ)} {state changed : σ} {error : ε} :
    (wholly next).run state = .error error changed ↔
      next state = .error error ∧ changed = state := by
  unfold EStateM.run wholly
  cases next state <;> simp [eq_comm]

/-- A program goes on from the state that its first part leaves. -/
theorem bind_apply {β : Type} (program : EStateM ε σ α) (next : α → EStateM ε σ β) (state : σ) :
    (program >>= next) state =
      match program state with
      | .ok result changed => next result changed
      | .error error changed => .error error changed :=
  rfl

theorem get_apply (state : σ) : (get : EStateM ε σ σ) state = .ok state state :=
  rfl

theorem throw_apply (error : ε) (state : σ) :
    (throw error : EStateM ε σ α) state = .error error state :=
  rfl

theorem modify_apply (change : σ → σ) (state : σ) :
    (modify change : EStateM ε σ PUnit) state = .ok ⟨⟩ (change state) :=
  rfl

theorem pure_apply (result : α) (state : σ) :
    (pure result : EStateM ε σ α) state = .ok result state :=
  rfl

end DecimalMachine
