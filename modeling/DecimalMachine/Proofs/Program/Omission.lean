import DecimalMachine.Proofs.Program.Needs
import DecimalMachine.Proofs.Program.Emission
import DecimalMachine.Program.Basic

/-!
# Lines that are passed over

A phase that does nothing at some lines does the same without them.  What is
left of the lines is given by any test of lines.
-/

namespace DecimalMachine.Program

/-- The lines that are left are marked as they are among all the lines, where the
others refer to nothing and are no expressions. -/
theorem mark_filter {left : Line → Bool} {lines : List Line} (optimize : Bool)
    (quiet : ∀ line ∈ lines, left line = false →
      line.form.references = [] ∧ ∀ name first rest, line.form ≠ .expression name first rest) :
    mark optimize (lines.filter left) =
      ((mark optimize lines).1.filter fun marked => left marked.line, (mark optimize lines).2) := by
  induction lines with
  | nil => rfl
  | cons line below ih =>
      have rest := ih fun other member => quiet other (List.mem_cons_of_mem line member)
      cases stays : left line with
      | true =>
          rw [List.filter_cons_of_pos stays, mark, mark, rest]
          cases line.form with
          | expression name first rest =>
              dsimp only
              split <;> simp [stays]
          | _ => simp [stays]
      | false =>
          rcases quiet line List.mem_cons_self stays with ⟨references, other⟩
          rw [List.filter_cons_of_neg (by simp [stays]), rest, mark]
          cases form : line.form with
          | expression name first rest => exact absurd form (other name first rest)
          | _ =>
              rw [form] at references
              simp [stays, references]

section Filter

variable {left : Marked → Bool} {lines : List Marked}

theorem upToHalt_filter
    (halts : ∀ marked ∈ lines, left marked = false → marked.line.isHalt = false) :
    upToHalt (lines.filter left) = (upToHalt lines).filter left := by
  induction lines with
  | nil => rfl
  | cons marked below ih =>
      have rest := ih fun other member => halts other (List.mem_cons_of_mem marked member)
      cases stays : left marked with
      | true =>
          rw [List.filter_cons_of_pos stays, upToHalt, upToHalt]
          split
          · rw [List.filter_cons_of_pos stays, List.filter_nil]
          · rw [List.filter_cons_of_pos stays, rest]
      | false =>
          have runs := halts marked List.mem_cons_self stays
          have gone : ¬ left marked = true := by simp [stays]
          rw [List.filter_cons_of_neg gone, upToHalt, runs, if_neg Bool.false_ne_true,
            List.filter_cons_of_neg gone, rest]

theorem needsHalt_filter
    (halts : ∀ marked ∈ lines, left marked = false → marked.line.isHalt = false)
    (terminated : Option Bool) :
    needsHalt terminated (lines.filter left) = needsHalt terminated lines := by
  have same : (lines.filter left).any (·.line.isHalt) = lines.any (·.line.isHalt) := by
    rw [List.any_filter, Bool.eq_iff_iff, List.any_eq_true, List.any_eq_true]
    apply exists_congr
    intro marked
    apply and_congr_right
    intro member
    cases stays : left marked with
    | true => simp
    | false => simp [halts marked member stays]
  rw [needsHalt, needsHalt, same]

theorem droppedNames_filter
    (kept : ∀ marked ∈ lines, left marked = false →
      marked.kept = true ∨ marked.line.form.declares? = none) :
    droppedNames (lines.filter left) = droppedNames lines := by
  rw [droppedNames, droppedNames, List.filterMap_filter]
  apply List.filterMap_congr
  intro marked member
  cases stays : left marked with
  | true => rfl
  | false =>
      rcases kept marked member stays with kept | undeclared
      · simp [kept]
      · simp [undeclared]

theorem Layout.placeAll_filter
    (nothing : ∀ marked ∈ lines, left marked = false → ∀ layout : Layout,
      layout.place marked = .ok layout) (layout : Layout) :
    layout.placeAll (lines.filter left) = layout.placeAll lines := by
  induction lines generalizing layout with
  | nil => rfl
  | cons marked below ih =>
      have rest := ih fun other member => nothing other (List.mem_cons_of_mem marked member)
      simp only [placeAll] at rest
      cases stays : left marked with
      | true =>
          rw [List.filter_cons_of_pos stays, placeAll, placeAll, List.foldlM_cons,
            List.foldlM_cons]
          simp only [rest]
      | false =>
          rw [List.filter_cons_of_neg (by simp [stays]), placeAll, placeAll, List.foldlM_cons,
            nothing marked List.mem_cons_self stays, rest]
          rfl

theorem emit_filter {labels : Table Nat}
    (nothing : ∀ marked ∈ lines, left marked = false → ∀ symbols : SymbolTable,
      emitLine labels symbols marked = .ok ([], symbols)) (symbols : SymbolTable) :
    emit labels symbols (lines.filter left) = emit labels symbols lines := by
  induction lines generalizing symbols with
  | nil => rfl
  | cons marked below ih =>
      have rest := ih fun other member => nothing other (List.mem_cons_of_mem marked member)
      cases stays : left marked with
      | true =>
          rw [List.filter_cons_of_pos stays, emit, emit]
          simp only [rest]
      | false =>
          rw [List.filter_cons_of_neg (by simp [stays]), rest, emit,
            nothing marked List.mem_cons_self stays]
          cases below : emit labels symbols below <;>
            simp [below, bind, Except.bind, pure, Except.pure]

end Filter

end DecimalMachine.Program
