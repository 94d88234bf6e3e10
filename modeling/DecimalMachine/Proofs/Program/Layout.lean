import DecimalMachine.Program.Layout
import DecimalMachine.Proofs.Outcomes
import DecimalMachine.Proofs.Program.Tables

/-!
# Laid out lines

Lines are laid out if and only if no variable and no label is declared twice.
Every label then stands for the number of words that the lines above it emit.
-/

namespace DecimalMachine

namespace Program

/-- The number of words that lines emit. -/
def wordCount : List Marked → Nat
  | [] => 0
  | marked :: lines => marked.size + wordCount lines

@[simp]
theorem wordCount_nil : wordCount [] = 0 :=
  rfl

@[simp]
theorem wordCount_cons (marked : Marked) (lines : List Marked) :
    wordCount (marked :: lines) = marked.size + wordCount lines :=
  rfl

/-- The names of the variables that lines declare, kept or not. -/
def declaredNames (lines : List Marked) : List String :=
  lines.filterMap (·.line.form.declares?)

/-- The label that a form places. -/
def formLabel? : Form → Option String
  | .label name => some name
  | _ => none

/-- The names of the labels of lines. -/
def labelNames (lines : List Marked) : List String :=
  lines.filterMap (formLabel? ·.line.form)

theorem declaredNames_cons (marked : Marked) (lines : List Marked) :
    declaredNames (marked :: lines) =
      marked.line.form.declares?.toList ++ declaredNames lines := by
  cases declares : marked.line.form.declares? <;> simp [declaredNames, declares]

theorem labelNames_cons (marked : Marked) (lines : List Marked) :
    labelNames (marked :: lines) = (formLabel? marked.line.form).toList ++ labelNames lines := by
  cases labels : formLabel? marked.line.form <;> simp [labelNames, labels]

theorem nodup_append_toList_iff {names : List String} {more : Option String} :
    (names ++ more.toList).Nodup ↔ names.Nodup ∧ ∀ name, more = some name → name ∉ names := by
  cases more with
  | none => simp
  | some name =>
      rw [Option.toList_some, ← List.concat_eq_append, List.nodup_concat, and_comm]
      simp

/-- The form of the line at an index. -/
def formAt? (lines : List Marked) (index : Nat) : Option Form :=
  (lines[index]?).map (·.line.form)

theorem exists_line_of_mem_labelNames {lines : List Marked} {name : String}
    (member : name ∈ labelNames lines) :
    ∃ index, formAt? lines index = some (.label name) := by
  obtain ⟨marked, memLines, labelled⟩ := List.mem_filterMap.mp member
  obtain ⟨index, here⟩ := List.mem_iff_getElem?.mp memLines
  refine ⟨index, ?_⟩
  rw [formAt?, here, Option.map_some]
  cases form : marked.line.form with
  | label other =>
      rw [form] at labelled
      cases labelled
      rfl
  | _ =>
      rw [form] at labelled
      cases labelled

namespace Layout

/-- What placing a line adds to a layout. -/
structure Placed (layout : Layout) (marked : Marked) (next : Layout) : Prop where
  size : next.size = layout.size + marked.size
  names : next.declared.names = layout.declared.names ++ marked.line.form.declares?.toList
  fresh : ∀ name, marked.line.form.declares? = some name → name ∉ layout.declared.names
  label : ∀ name, marked.line.form = .label name → layout.labels.find? name = none ∧
    next.labels = layout.labels.add name marked.line.location layout.size
  labels : (∀ name, marked.line.form ≠ .label name) → next.labels = layout.labels

theorem placed_of_place {layout next : Layout} {marked : Marked}
    (place : layout.place marked = .ok next) : Placed layout marked next := by
  obtain ⟨⟨form, text, location⟩, kept⟩ := marked
  cases form with
  | «variable» name _ | expression name _ _ =>
      simp only [Layout.place, bind_eq_ok_iff] at place
      obtain ⟨declared, declare, place⟩ := place
      obtain ⟨fresh, rfl⟩ := Table.declare_eq_ok_iff.mp declare
      cases place
      refine ⟨rfl, Table.names_add .., ?_, ?_, fun _ => rfl⟩
      · rintro other ⟨⟩
        exact Table.find?_eq_none_iff.mp fresh
      · rintro other ⟨⟩
  | label name =>
      simp only [Layout.place, bind_eq_ok_iff] at place
      obtain ⟨labels, declare, place⟩ := place
      obtain ⟨fresh, rfl⟩ := Table.declare_eq_ok_iff.mp declare
      cases place
      refine ⟨rfl, by simp [Form.declares?], ?_, ?_, ?_⟩
      · rintro other ⟨⟩
      · rintro other ⟨⟩
        exact ⟨fresh, rfl⟩
      · intro unlabelled
        exact absurd rfl (unlabelled name)
  | blank | comment | instruction =>
      cases place
      refine ⟨rfl, by simp [Form.declares?], ?_, ?_, fun _ => rfl⟩
      · rintro other ⟨⟩
      · rintro other ⟨⟩

theorem placeAll_cons_eq_ok {layout final : Layout} {marked : Marked} {below : List Marked}
    (placed : layout.placeAll (marked :: below) = .ok final) :
    ∃ next, Placed layout marked next ∧ next.placeAll below = .ok final := by
  rw [placeAll, List.foldlM_cons, bind_eq_ok_iff] at placed
  obtain ⟨next, place, placed⟩ := placed
  exact ⟨next, placed_of_place place, placed⟩

section Layouts

variable {layout next final : Layout} {marked : Marked} {lines : List Marked} {name : String}
  {entry : Entry Nat}

theorem Placed.labelNames_eq (placed : Placed layout marked next) :
    next.labels.names = layout.labels.names ++ (formLabel? marked.line.form).toList := by
  cases form : marked.line.form with
  | label name => rw [(placed.label name form).2, Table.names_add]; rfl
  | _ => rw [placed.labels (by simp [form])]; simp [formLabel?]

/-- A line is laid out if and only if it declares nothing that is declared
already. -/
theorem exists_place_iff :
    (∃ next, layout.place marked = .ok next) ↔
      (∀ name, marked.line.form.declares? = some name → name ∉ layout.declared.names) ∧
        ∀ name, formLabel? marked.line.form = some name → name ∉ layout.labels.names := by
  constructor
  · rintro ⟨next, place⟩
    have placed := placed_of_place place
    refine ⟨placed.fresh, ?_⟩
    intro name labelled
    cases form : marked.line.form with
    | label other =>
        rw [form] at labelled
        cases labelled
        exact Table.find?_eq_none_iff.mp (placed.label name form).1
    | _ =>
        rw [form] at labelled
        cases labelled
  · rintro ⟨variableFresh, labelFresh⟩
    obtain ⟨⟨form, text, location⟩, kept⟩ := marked
    cases form with
    | «variable» name _ | expression name _ _ =>
        have fresh := Table.find?_eq_none_iff.mpr (variableFresh name rfl)
        exact ⟨_, bind_eq_ok_iff.mpr ⟨_, Table.declare_eq_ok_iff.mpr ⟨fresh, rfl⟩, rfl⟩⟩
    | label name =>
        have fresh := Table.find?_eq_none_iff.mpr (labelFresh name rfl)
        exact ⟨_, bind_eq_ok_iff.mpr ⟨_, Table.declare_eq_ok_iff.mpr ⟨fresh, rfl⟩, rfl⟩⟩
    | blank | comment | instruction => exact ⟨_, rfl⟩

/-- The labels of lines that are laid out are theirs. -/
theorem labelNames_of_placeAll (placed : layout.placeAll lines = .ok final) :
    final.labels.names = layout.labels.names ++ labelNames lines := by
  induction lines generalizing layout with
  | nil =>
      cases placed
      simp [labelNames]
  | cons marked below ih =>
      obtain ⟨next, step, rest⟩ := placeAll_cons_eq_ok placed
      rw [ih rest, step.labelNames_eq, labelNames_cons, List.append_assoc]

/-- Lines are laid out if and only if no variable and no label is declared
twice. -/
theorem exists_placeAll_iff (variableNodup : layout.declared.names.Nodup)
    (labelNodup : layout.labels.names.Nodup) :
    (∃ final, layout.placeAll lines = .ok final) ↔
      (layout.declared.names ++ declaredNames lines).Nodup ∧
        (layout.labels.names ++ labelNames lines).Nodup := by
  induction lines generalizing layout with
  | nil => simp [placeAll, declaredNames, labelNames, variableNodup, labelNodup, pure, Except.pure]
  | cons marked below ih =>
      have rest : ∀ {next}, layout.place marked = .ok next →
          ((∃ final, next.placeAll below = .ok final) ↔
            (layout.declared.names ++ declaredNames (marked :: below)).Nodup ∧
              (layout.labels.names ++ labelNames (marked :: below)).Nodup) := by
        intro next place
        have placed := placed_of_place place
        obtain ⟨variableFresh, labelFresh⟩ := exists_place_iff.mp ⟨next, place⟩
        have later := @ih next
          (placed.names ▸ nodup_append_toList_iff.mpr ⟨variableNodup, variableFresh⟩)
          (placed.labelNames_eq ▸ nodup_append_toList_iff.mpr ⟨labelNodup, labelFresh⟩)
        rwa [placed.names, placed.labelNames_eq, List.append_assoc, List.append_assoc,
          ← declaredNames_cons, ← labelNames_cons] at later
      constructor
      · rintro ⟨final, placed⟩
        rw [placeAll, List.foldlM_cons, bind_eq_ok_iff] at placed
        obtain ⟨next, place, placed⟩ := placed
        exact (rest place).mp ⟨final, placed⟩
      · rintro ⟨joinedVariables, joinedLabels⟩
        have variableFront := joinedVariables
        have labelFront := joinedLabels
        rw [declaredNames_cons, ← List.append_assoc] at variableFront
        rw [labelNames_cons, ← List.append_assoc] at labelFront
        obtain ⟨next, place⟩ := exists_place_iff.mpr
          ⟨(nodup_append_toList_iff.mp (List.nodup_append.mp variableFront).1).2,
            (nodup_append_toList_iff.mp (List.nodup_append.mp labelFront).1).2⟩
        obtain ⟨final, placed⟩ := (rest place).mpr ⟨joinedVariables, joinedLabels⟩
        refine ⟨final, ?_⟩
        rw [placeAll, List.foldlM_cons, bind_eq_ok_iff]
        exact ⟨next, place, placed⟩

theorem exists_placeAll_empty_iff :
    (∃ final, empty.placeAll lines = .ok final) ↔
      (declaredNames lines).Nodup ∧ (labelNames lines).Nodup :=
  exists_placeAll_iff List.Pairwise.nil List.Pairwise.nil

/-- Labels stay where they were placed. -/
theorem Placed.find?_next (placed : Placed layout marked next)
    (known : layout.labels.find? name = some entry) : next.labels.find? name = some entry := by
  cases form : marked.line.form with
  | label other => simp [(placed.label other form).2, Table.find?_add, known]
  | _ => rw [placed.labels (by simp [form]), known]

theorem find?_of_placeAll (placed : layout.placeAll lines = .ok final)
    (known : layout.labels.find? name = some entry) : final.labels.find? name = some entry := by
  induction lines generalizing layout with
  | nil =>
      cases placed
      exact known
  | cons marked below ih =>
      obtain ⟨next, step, rest⟩ := placeAll_cons_eq_ok placed
      exact ih rest (step.find?_next known)

/-- A label is placed at the number of words of the lines above it. -/
theorem exists_label_of_placeAll (placed : layout.placeAll lines = .ok final) {index : Nat}
    (here : lines[index]? = some marked) (form : marked.line.form = .label name) :
    ∃ entry, final.labels.find? name = some entry ∧
      entry.value = layout.size + wordCount (lines.take index) := by
  induction lines generalizing layout index with
  | nil => cases here
  | cons first below ih =>
      obtain ⟨next, step, rest⟩ := placeAll_cons_eq_ok placed
      cases index with
      | zero =>
          cases here
          obtain ⟨fresh, labels⟩ := step.label name form
          have placed :
              next.labels.find? name = some ⟨name, marked.line.location, layout.size⟩ := by
            rw [labels, Table.find?_add, fresh, if_pos rfl]
            rfl
          exact ⟨_, find?_of_placeAll rest placed, rfl⟩
      | succ index =>
          obtain ⟨entry, found, value⟩ := ih rest here
          refine ⟨entry, found, ?_⟩
          rw [value, step.size, List.take_succ_cons, wordCount_cons, Nat.add_assoc]

end Layouts

end Layout

end Program

end DecimalMachine
