import DecimalMachine.Program.Liveness
import DecimalMachine.Proofs.Program.Layout
import DecimalMachine.Proofs.Source.Reading

/-!
# Marked lines

The decision what to keep leaves the lines themselves alone, and so does the
end at the first halt where only the last line is one.  Where no variable is
declared twice, an expression is left out if and only if its name is among the
names that are left out.
-/

namespace DecimalMachine.Program

theorem map_line_mark (optimize : Bool) (lines : List Line) :
    (mark optimize lines).1.map (·.line) = lines := by
  induction lines with
  | nil => rfl
  | cons line below ih =>
      simp only [mark]
      split
      · split <;> simp [ih]
      · simp [ih]

theorem upToHalt_eq_self {lines : List Marked}
    (halts : ∀ marked ∈ lines.dropLast, marked.line.isHalt = false) : upToHalt lines = lines := by
  induction lines with
  | nil => rfl
  | cons marked below ih =>
      cases below with
      | nil => simp [upToHalt]
      | cons second more =>
          rw [List.dropLast_cons_cons] at halts
          have first := halts marked List.mem_cons_self
          rw [upToHalt, first, ih fun other member => halts other (List.mem_cons_of_mem _ member)]
          rfl

/-- The marks of a source are those of all its lines. -/
theorem marks_eq_mark {file source : String} {lines : List Line}
    (read : Source.lines file source = .ok lines) (optimize : Bool) :
    marks optimize lines = (mark optimize lines).1 := by
  apply upToHalt_eq_self
  intro marked member
  apply Source.isHalt_eq_false_of_mem_dropLast read
  rw [← map_line_mark optimize lines, ← List.map_dropLast]
  exact List.mem_map_of_mem member

/-- The lines of a source are marked one by one. -/
theorem map_line_marks {file source : String} {lines : List Line}
    (read : Source.lines file source = .ok lines) (optimize : Bool) :
    (marks optimize lines).map (·.line) = lines := by
  rw [marks_eq_mark read, map_line_mark]

theorem mem_droppedNames {lines : List Marked} {name : String} :
    name ∈ droppedNames lines ↔
      ∃ marked ∈ lines, marked.kept = false ∧ marked.line.form.declares? = some name := by
  simp only [droppedNames, List.mem_filterMap]
  constructor
  · rintro ⟨marked, member, declares⟩
    split at declares
    · cases declares
    · next kept => exact ⟨marked, member, by simpa using kept, declares⟩
  · rintro ⟨marked, member, kept, declares⟩
    exact ⟨marked, member, by rw [if_neg (by simp [kept]), declares]⟩

/-- In lines that declare no name twice, a line is known by the name that it
declares. -/
theorem eq_of_declares?_eq {lines : List Marked} (nodup : (declaredNames lines).Nodup)
    {first second : Marked} (firstMem : first ∈ lines) (secondMem : second ∈ lines)
    {name : String} (firstName : first.line.form.declares? = some name)
    (secondName : second.line.form.declares? = some name) : first = second := by
  induction lines with
  | nil => cases firstMem
  | cons marked below ih =>
      cases declares : marked.line.form.declares? with
      | none =>
          simp only [declaredNames, List.filterMap_cons, declares] at nodup
          have notFirst : first ≠ marked := by
            rintro rfl
            rw [declares] at firstName
            cases firstName
          have notSecond : second ≠ marked := by
            rintro rfl
            rw [declares] at secondName
            cases secondName
          exact ih nodup ((List.mem_cons.mp firstMem).resolve_left notFirst)
            ((List.mem_cons.mp secondMem).resolve_left notSecond)
      | some other =>
          simp only [declaredNames, List.filterMap_cons, declares, List.nodup_cons] at nodup
          obtain ⟨fresh, nodup⟩ := nodup
          have later : ∀ {line : Marked}, line ∈ below →
              line.line.form.declares? = some name → name ≠ other := by
            rintro line member declared rfl
            exact fresh (List.mem_filterMap.mpr ⟨line, member, declared⟩)
          rcases List.mem_cons.mp firstMem with rfl | firstBelow <;>
            rcases List.mem_cons.mp secondMem with rfl | secondBelow
          · rfl
          · rw [declares] at firstName
            exact absurd (Option.some.inj firstName).symm (later secondBelow secondName)
          · rw [declares] at secondName
            exact absurd (Option.some.inj secondName).symm (later firstBelow firstName)
          · exact ih nodup firstBelow secondBelow

theorem mem_droppedNames_iff_of_mem {lines : List Marked} (nodup : (declaredNames lines).Nodup)
    {marked : Marked} (member : marked ∈ lines) {name : String}
    (declares : marked.line.form.declares? = some name) :
    name ∈ droppedNames lines ↔ marked.kept = false := by
  rw [mem_droppedNames]
  constructor
  · rintro ⟨other, otherMem, kept, otherName⟩
    rwa [eq_of_declares?_eq nodup member otherMem declares otherName]
  · intro kept
    exact ⟨marked, member, kept, declares⟩

end DecimalMachine.Program
