import Mathlib.Data.List.Induction
import Mathlib.Data.List.Nodup

/-!
# First occurrences

A list without its repetitions keeps the first occurrence of every element, in the
order in which these stand.
-/

namespace DecimalMachine

/-- Without repetitions a list grows by the elements that are new. -/
theorem eraseDups_concat {α : Type} [DecidableEq α] (items : List α) (last : α) :
    (items ++ [last]).eraseDups =
      if last ∈ items then items.eraseDups else items.eraseDups ++ [last] := by
  rw [List.eraseDups_append]
  by_cases known : last ∈ items
  · simp [List.removeAll, known]
  · simp [List.removeAll, known, List.eraseDups_cons]

theorem nodup_eraseDups {α : Type} [DecidableEq α] (items : List α) : items.eraseDups.Nodup := by
  induction items using List.reverseRecOn with
  | nil => exact List.nodup_nil
  | append_singleton items last ih =>
      rw [eraseDups_concat]
      split
      · exact ih
      · next new =>
          refine List.nodup_append.mpr ⟨ih, List.nodup_singleton last, ?_⟩
          rintro first member second here rfl
          rw [List.mem_singleton.mp here] at member
          exact new (List.mem_eraseDups.mp member)

/-- Without repetitions the elements of a list stand in the order of their first
occurrence. -/
theorem pairwise_idxOf_eraseDups {α : Type} [DecidableEq α] (items : List α) :
    items.eraseDups.Pairwise fun first second => items.idxOf first < items.idxOf second := by
  -- Induction on the last element, which is new or changes nothing.
  induction items using List.reverseRecOn with
  | nil => exact List.Pairwise.nil
  | append_singleton items last ih =>
      have front : items.eraseDups.Pairwise fun first second =>
          (items ++ [last]).idxOf first < (items ++ [last]).idxOf second := by
        refine ih.imp_of_mem ?_
        intro first second firstMem secondMem before
        rwa [List.idxOf_append_of_mem (List.mem_eraseDups.mp firstMem),
          List.idxOf_append_of_mem (List.mem_eraseDups.mp secondMem)]
      rw [eraseDups_concat]
      split
      · exact front
      · next new =>
          rw [List.pairwise_append]
          refine ⟨front, List.pairwise_singleton _ _, ?_⟩
          intro first firstMem second secondMem
          have member := List.mem_eraseDups.mp firstMem
          rw [List.mem_singleton.mp secondMem, List.idxOf_append_of_mem member,
            List.idxOf_append_of_notMem new]
          exact Nat.lt_of_lt_of_le (List.idxOf_lt_length_of_mem member) (Nat.le_add_right _ _)

/-- In a list without repetitions an element has one index. -/
theorem idxOf?_eq_some_iff_getElem? {α : Type} [BEq α] [LawfulBEq α] {items : List α}
    (nodup : items.Nodup) {item : α} {index : Nat} :
    items.idxOf? item = some index ↔ items[index]? = some item := by
  rw [List.idxOf?_eq_some_iff, List.getElem?_eq_some_iff]
  constructor
  · rintro ⟨inside, here, _⟩
    exact ⟨inside, here⟩
  · rintro ⟨inside, here⟩
    refine ⟨inside, here, ?_⟩
    intro other before same
    have one := (nodup.getElem_inj_iff).mp (same.trans here.symm)
    omega

end DecimalMachine
