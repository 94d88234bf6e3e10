import DecimalMachine.Proofs.Outcomes
import Mathlib.Data.List.Induction

/-!
# First faults

A walk over a list takes its items one after the other and stops at the first
error.  If the errors of its steps are faults of the items, which depend on the
items above them, then a list is walked to its end where none of its items is at
fault, and otherwise the error is that of the first one that is.
-/

namespace DecimalMachine

variable {α β γ ε : Type}

/-- No item of a list is at fault, below those above it. -/
def Faultless (Fault : List α → α → γ → Prop) (items : List α) : Prop :=
  ∀ above item below, items = above ++ item :: below → ∀ cause, ¬ Fault above item cause

/-- An item of a list is at fault, and none above it is. -/
structure FirstFault (Fault : List α → α → γ → Prop) (items above : List α) (item : α)
    (cause : γ) : Prop where
  split : ∃ below, items = above ++ item :: below
  faultless : Faultless Fault above
  fault : Fault above item cause

section Faults

variable {Fault : List α → α → γ → Prop} {items above : List α} {item other : α} {cause : γ}

theorem faultless_nil : Faultless Fault [] := by
  intro above item below split
  exact absurd split (by simp)

/-- A split of a list with one more item at its end is one of the list, or is at
this item. -/
theorem concat_eq_append_cons {below : List α} (split : items ++ [item] = above ++ other :: below) :
    (∃ rest, items = above ++ other :: rest) ∨ above = items ∧ other = item := by
  rcases List.eq_nil_or_concat below with rfl | ⟨rest, last, rfl⟩
  · obtain ⟨rfl, same⟩ := List.append_inj' split rfl
    cases same
    exact .inr ⟨rfl, rfl⟩
  · rw [List.concat_eq_append, ← List.cons_append, ← List.append_assoc] at split
    exact .inl ⟨rest, (List.append_inj' split rfl).1⟩

theorem faultless_concat_iff :
    Faultless Fault (items ++ [item]) ↔
      Faultless Fault items ∧ ∀ cause, ¬ Fault items item cause := by
  constructor
  · intro faultless
    refine ⟨?_, faultless items item [] rfl⟩
    rintro above other below rfl
    exact faultless above other (below ++ [item]) (by simp)
  · rintro ⟨faultless, sound⟩ above other below split
    rcases concat_eq_append_cons split with ⟨rest, inside⟩ | ⟨rfl, rfl⟩
    · exact faultless above other rest inside
    · exact sound

theorem firstFault_concat_iff :
    FirstFault Fault (items ++ [item]) above other cause ↔
      FirstFault Fault items above other cause ∨
        above = items ∧ other = item ∧ Faultless Fault items ∧ Fault items item cause := by
  constructor
  · rintro ⟨⟨below, split⟩, faultless, fault⟩
    rcases concat_eq_append_cons split with inside | ⟨rfl, rfl⟩
    · exact .inl ⟨inside, faultless, fault⟩
    · exact .inr ⟨rfl, rfl, faultless, fault⟩
  · rintro (⟨⟨below, rfl⟩, faultless, fault⟩ | ⟨rfl, rfl, faultless, fault⟩)
    · exact ⟨⟨below ++ [item], by simp⟩, faultless, fault⟩
    · exact ⟨⟨[], rfl⟩, faultless, fault⟩

end Faults

/-- A function walks over a list: one more item at the end is one more step. -/
structure Walks (run : List α → Except ε β) (step : β → α → Except ε β) : Prop where
  nil : ∃ state, run [] = .ok state
  concat : ∀ front item, run (front ++ [item]) = run front >>= (step · item)

namespace Walks

variable {Fault : List α → α → γ → Prop} {blame : α → γ → ε} {run : List α → Except ε β}
  {step : β → α → Except ε β} {items : List α}

section

variable (walks : Walks run step)
  (steps : ∀ above item below state error, items = above ++ item :: below →
    run above = .ok state →
    (step state item = .error error ↔ ∃ cause, Fault above item cause ∧ error = blame item cause))

include walks steps

/-- A list is walked to its end if and only if none of its items is at fault. -/
theorem exists_ok_iff : (∃ state, run items = .ok state) ↔ Faultless Fault items := by
  induction items using List.reverseRecOn with
  | nil => exact ⟨fun _ => faultless_nil, fun _ => walks.nil⟩
  | append_singleton items item ih =>
      have inner := ih fun above other below state error split =>
        steps above other (below ++ [item]) state error (by simp [split])
      have last := fun state error => steps items item [] state error rfl
      simp only [walks.concat, bind_eq_ok_iff, faultless_concat_iff, ← inner]
      constructor
      · rintro ⟨next, state, walked, stepped⟩
        refine ⟨⟨state, walked⟩, fun cause fault => ?_⟩
        rw [(last state _ walked).mpr ⟨cause, fault, rfl⟩] at stepped
        cases stepped
      · rintro ⟨⟨state, walked⟩, sound⟩
        cases stepped : step state item with
        | ok next => exact ⟨next, state, walked, stepped⟩
        | error error =>
            obtain ⟨cause, fault, _⟩ := (last state error walked).mp stepped
            exact absurd fault (sound cause)

/-- The error of a walk is that of the first item at fault. -/
theorem eq_error_iff {error : ε} : run items = .error error ↔
    ∃ above item cause, FirstFault Fault items above item cause ∧ error = blame item cause := by
  induction items using List.reverseRecOn with
  | nil =>
      obtain ⟨state, walked⟩ := walks.nil
      rw [walked]
      constructor
      · rintro ⟨⟩
      · rintro ⟨above, item, cause, ⟨⟨below, split⟩, _, _⟩, _⟩
        exact absurd split (by simp)
  | append_singleton items item ih =>
      have short : ∀ above other below state error, items = above ++ other :: below → _ :=
        fun above other below state error split =>
          steps above other (below ++ [item]) state error (by simp [split])
      have last := fun state error => steps items item [] state error rfl
      simp only [walks.concat, bind_eq_error_iff, ih short, firstFault_concat_iff]
      constructor
      · rintro (⟨above, other, cause, first, rfl⟩ | ⟨state, walked, stepped⟩)
        · exact ⟨above, other, cause, .inl first, rfl⟩
        · -- The last item is reached only where none above it is at fault.
          have faultless := (walks.exists_ok_iff short).mp ⟨state, walked⟩
          obtain ⟨cause, fault, rfl⟩ := (last state error walked).mp stepped
          exact ⟨items, item, cause, .inr ⟨rfl, rfl, faultless, fault⟩, rfl⟩
      · rintro ⟨above, other, cause, first | ⟨rfl, rfl, faultless, fault⟩, rfl⟩
        · exact .inl ⟨above, other, cause, first, rfl⟩
        · obtain ⟨state, walked⟩ := (walks.exists_ok_iff short).mpr faultless
          exact .inr ⟨state, walked, (last state _ walked).mpr ⟨cause, fault, rfl⟩⟩

end

end Walks

end DecimalMachine
