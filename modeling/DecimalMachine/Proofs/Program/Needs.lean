import DecimalMachine.Proofs.Program.Liveness

/-!
# Needed names

A name is needed where an instruction below refers to it, or an expression
below that is needed itself.  An optimized program leaves out exactly the
expressions whose names are not needed below them, so that every name that a
kept line refers to is that of a kept line.
-/

namespace DecimalMachine.Program

/-- The names that lines need, directly or for an expression among them. -/
inductive Needed : List Line → String → Prop where
  | operand {line : Line} {below : List Line} {command name : String}
      (form : line.form = .instruction command (some name))
      (unmarked : Form.isLabelOperand name = false) : Needed (line :: below) name
  | term {line : Line} {below : List Line} {target first name : String}
      {rest : List (Sign × String)} (form : line.form = .expression target first rest)
      (needed : Needed below target) (member : name ∈ Form.terms first rest) :
      Needed (line :: below) name
  | later {line : Line} {below : List Line} {name : String} (needed : Needed below name) :
      Needed (line :: below) name

theorem Needed.of_drop {lines : List Line} {name : String} {first second : Nat}
    (before : first ≤ second) (needed : Needed (lines.drop second) name) :
    Needed (lines.drop first) name := by
  induction lines generalizing first second with
  | nil =>
      rw [List.drop_nil] at needed
      cases needed
  | cons line below ih =>
      cases second with
      | zero =>
          cases Nat.le_zero.mp before
          exact needed
      | succ second =>
          cases first with
          | zero => exact .later (ih (Nat.zero_le second) needed)
          | succ first => exact ih (Nat.le_of_succ_le_succ before) needed

/-- A name to which an instruction refers is needed above it. -/
theorem needed_of_operand {lines : List Line} {index above : Nat} {line : Line}
    {command name : String} (here : lines[index]? = some line) (before : above ≤ index)
    (form : line.form = .instruction command (some name))
    (unmarked : Form.isLabelOperand name = false) : Needed (lines.drop above) name := by
  obtain ⟨inside, rfl⟩ := List.getElem?_eq_some_iff.mp here
  apply Needed.of_drop before
  rw [List.drop_eq_getElem_cons inside]
  exact .operand form unmarked

/-- A term of an expression that is needed below it is needed above it. -/
theorem needed_of_term {lines : List Line} {index above : Nat} {line : Line}
    {target first name : String} {rest : List (Sign × String)}
    (here : lines[index]? = some line) (before : above ≤ index)
    (form : line.form = .expression target first rest)
    (needed : Needed (lines.drop (index + 1)) target) (member : name ∈ Form.terms first rest) :
    Needed (lines.drop above) name := by
  obtain ⟨inside, rfl⟩ := List.getElem?_eq_some_iff.mp here
  apply Needed.of_drop before
  rw [List.drop_eq_getElem_cons inside]
  exact .term form needed member

/-- A decision which lines to keep: an optimized program leaves out the
expressions whose names are not needed below them, and nothing else. -/
def Decided (optimize : Bool) (lines : List Marked) : Prop :=
  ∀ index marked, lines[index]? = some marked →
    (marked.kept = false ↔ optimize = true ∧ ∃ name first rest,
      marked.line.form = .expression name first rest ∧
        ¬ Needed ((lines.map (·.line)).drop (index + 1)) name)

/-- There is one decision for lines. -/
theorem Decided.unique {optimize : Bool} {first second : List Marked}
    (firstDecided : Decided optimize first) (secondDecided : Decided optimize second)
    (same : first.map (·.line) = second.map (·.line)) : first = second := by
  apply List.ext_getElem?
  intro index
  have sameLine : (first[index]?).map (·.line) = (second[index]?).map (·.line) := by
    rw [← List.getElem?_map, same, List.getElem?_map]
  cases firstHere : first[index]? with
  | none =>
      rw [firstHere, Option.map_none] at sameLine
      exact (Option.map_eq_none_iff.mp sameLine.symm).symm
  | some marked =>
      rw [firstHere, Option.map_some] at sameLine
      obtain ⟨other, secondHere, sameLine⟩ := Option.map_eq_some_iff.mp sameLine.symm
      have left := firstDecided index marked firstHere
      have right := secondDecided index other secondHere
      rw [same, ← sameLine, ← right] at left
      rw [secondHere]
      obtain ⟨line, kept⟩ := marked
      obtain ⟨otherLine, otherKept⟩ := other
      cases sameLine
      simp only at left
      cases kept <;> cases otherKept <;> simp_all

/-- The first line is kept if it is no expression, if everything is, or if a
kept line below refers to its name. -/
theorem exists_mark_cons (optimize : Bool) (line : Line) (below : List Line) :
    ∃ kept, (mark optimize (line :: below)).1 = ⟨line, kept⟩ :: (mark optimize below).1 ∧
      (kept = false ↔ optimize = true ∧ ∃ name first rest,
        line.form = .expression name first rest ∧ name ∉ (mark optimize below).2) ∧
      (mark optimize (line :: below)).2 =
        (if kept then line.form.references else []) ++ (mark optimize below).2 := by
  obtain ⟨form, text, location⟩ := line
  cases form with
  | expression name first rest =>
      simp only [mark]
      cases dropped : optimize && !(mark optimize below).2.contains name with
      | true =>
          refine ⟨false, rfl, ?_, rfl⟩
          simpa using dropped
      | false =>
          refine ⟨true, rfl, ?_, rfl⟩
          simpa using dropped
  | _ => exact ⟨true, rfl, by simp, rfl⟩

/-- What a line refers to is needed by it, if its own name is. -/
theorem needed_of_reference {line : Line} {below : List Line} {name : String}
    (member : name ∈ line.form.references)
    (needed : ∀ target first rest, line.form = .expression target first rest →
      Needed below target) : Needed (line :: below) name := by
  cases form : line.form with
  | expression target first rest =>
      rw [form] at member
      exact .term form (needed target first rest form) member
  | instruction command operand =>
      rw [form] at member
      cases operand with
      | none => cases member
      | some operand =>
          simp only [Form.references] at member
          split at member
          · cases member
          · next unmarked =>
              cases List.mem_singleton.mp member
              exact .operand form (by simpa using unmarked)
  | _ =>
      rw [form] at member
      cases member

/-- The names that the kept lines of an optimized program refer to are those
that its lines need. -/
theorem mem_mark_iff {lines : List Line} {name : String} :
    name ∈ (mark true lines).2 ↔ Needed lines name := by
  induction lines generalizing name with
  | nil =>
      constructor
      · rintro ⟨⟩
      · rintro ⟨⟩
  | cons line below ih =>
      obtain ⟨kept, _, decision, references⟩ := exists_mark_cons true line below
      have keeps : ∀ target first rest, line.form = .expression target first rest →
          (kept = true ↔ Needed below target) := by
        intro target first rest form
        rw [← ih, ← not_iff_not, Bool.not_eq_true, decision, form]
        simp
      rw [references, List.mem_append, ih]
      constructor
      · rintro (here | later)
        · cases kept with
          | false => cases here
          | true => exact needed_of_reference here fun target first rest form =>
              (keeps target first rest form).mp rfl
        · exact .later later
      · intro needed
        cases needed with
        | operand form unmarked =>
            left
            cases kept with
            | false => simp [form] at decision
            | true => simp [form, Form.references, unmarked]
        | term form needed member =>
            left
            rw [(keeps _ _ _ form).mpr needed, form]
            exact member
        | later needed => exact .inr needed

/-- The marks of lines are the decision. -/
theorem decided_mark (optimize : Bool) (lines : List Line) :
    Decided optimize (mark optimize lines).1 := by
  induction lines with
  | nil =>
      intro index marked here
      cases here
  | cons line below ih =>
      obtain ⟨kept, marks, decision, _⟩ := exists_mark_cons optimize line below
      intro index marked here
      rw [marks] at here ⊢
      cases index with
      | zero =>
          cases here
          rw [List.map_cons, List.drop_succ_cons, List.drop_zero, map_line_mark, decision]
          refine and_congr_right fun optimized => ?_
          subst optimized
          simp only [mem_mark_iff]
      | succ index => exact ih index marked here

/-- Only expressions are left out. -/
theorem Decided.kept_of_ne {optimize : Bool} {lines : List Marked} {marked : Marked}
    (decided : Decided optimize lines) (member : marked ∈ lines)
    (other : ∀ name first rest, marked.line.form ≠ .expression name first rest) :
    marked.kept = true := by
  obtain ⟨index, here⟩ := List.mem_iff_getElem?.mp member
  rw [← Bool.not_eq_false, decided index marked here]
  rintro ⟨_, name, first, rest, form, _⟩
  exact other name first rest form

theorem mem_of_mem_upToHalt {lines : List Marked} {marked : Marked}
    (member : marked ∈ upToHalt lines) : marked ∈ lines := by
  induction lines with
  | nil => cases member
  | cons first below ih =>
      simp only [upToHalt] at member
      split at member
      · exact List.mem_cons.mpr (.inl (List.mem_singleton.mp member))
      · rcases List.mem_cons.mp member with rfl | member
        · exact List.mem_cons_self
        · exact List.mem_cons_of_mem _ (ih member)

/-- Without optimization nothing is left out. -/
theorem droppedNames_marks_false (lines : List Line) : droppedNames (marks false lines) = [] := by
  rw [droppedNames, List.filterMap_eq_nil_iff]
  intro marked member
  obtain ⟨index, here⟩ := List.mem_iff_getElem?.mp (mem_of_mem_upToHalt member)
  rw [if_pos]
  rw [← Bool.not_eq_false, decided_mark false lines index marked here]
  rintro ⟨⟨⟩, _⟩

/-- The marks of a source are the decision for its lines. -/
theorem decided_marks {file source : String} {lines : List Line}
    (read : Source.lines file source = .ok lines) (optimize : Bool) :
    Decided optimize (marks optimize lines) :=
  marks_eq_mark read optimize ▸ decided_mark optimize lines

end DecimalMachine.Program
