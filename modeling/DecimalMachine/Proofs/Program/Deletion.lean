import DecimalMachine.Proofs.Program.Omission
import DecimalMachine.Proofs.Program.WellFormed

/-!
# Deleted expressions

Optimizing is deleting lines.  An optimized program is the plain program of the
lines that are left when the expressions that it leaves out are deleted, except
that the plain program has none to tell of.

Deleting them is possible because every phase passes over them: the layout
counts no word for them, and emission neither resolves their terms nor declares
their names.  Conversely a program that is compiled as it stands is compiled
with fewer lines as well: what a kept expression refers to is needed, so that it
is never the name of an expression that is left out.
-/

namespace DecimalMachine.Program

/-- Lines without the expressions of some names. -/
def withoutExpressions (names : List String) (lines : List Line) : List Line :=
  lines.filter fun line =>
    match line.form with
    | .expression name _ _ => !names.contains name
    | _ => true

/-- The lines that are kept. -/
def keptLines (lines : List Marked) : List Marked :=
  lines.filter (·.kept)

/-- Only expressions are left out. -/
def OmitsExpressions (lines : List Marked) : Prop :=
  ∀ marked ∈ lines, marked.kept = false →
    ∃ name first rest, marked.line.form = .expression name first rest

theorem Decided.omitsExpressions {optimize : Bool} {lines : List Marked}
    (decided : Decided optimize lines) : OmitsExpressions lines := by
  intro marked member kept
  obtain ⟨index, here⟩ := List.mem_iff_getElem?.mp member
  obtain ⟨_, name, first, rest, form, _⟩ := (decided index marked here).mp kept
  exact ⟨name, first, rest, form⟩

/-! ## What every phase makes of the lines that are kept -/

section Kept

variable {marked : Marked} {lines : List Marked}

theorem keptLines_cons_of_kept (kept : marked.kept = true) :
    keptLines (marked :: lines) = marked :: keptLines lines :=
  List.filter_cons_of_pos kept

theorem keptLines_cons_of_omitted (kept : marked.kept = false) :
    keptLines (marked :: lines) = keptLines lines :=
  List.filter_cons_of_neg (by simp [kept])

theorem OmitsExpressions.tail (omits : OmitsExpressions (marked :: lines)) :
    OmitsExpressions lines :=
  fun other member => omits other (List.mem_cons_of_mem marked member)

theorem OmitsExpressions.isHalt_eq_false (omits : OmitsExpressions lines) (member : marked ∈ lines)
    (kept : marked.kept = false) : marked.line.isHalt = false := by
  obtain ⟨name, first, rest, form⟩ := omits marked member kept
  simp [Line.isHalt, Form.isHalt, form]

theorem droppedNames_keptLines : droppedNames (keptLines lines) = [] := by
  rw [droppedNames, List.filterMap_eq_nil_iff]
  intro marked member
  rw [if_pos (List.mem_filter.mp member).2]

theorem needsHalt_keptLines (omits : OmitsExpressions lines) (terminated : Option Bool) :
    needsHalt terminated (keptLines lines) = needsHalt terminated lines :=
  needsHalt_filter (fun _ member kept => omits.isHalt_eq_false member kept) terminated

theorem upToHalt_keptLines (omits : OmitsExpressions lines) :
    upToHalt (keptLines lines) = keptLines (upToHalt lines) :=
  upToHalt_filter fun _ member kept => omits.isHalt_eq_false member kept

/-- An expression that is left out emits nothing and declares nothing, whatever
its terms are. -/
theorem emitLine_omitted {labels : Table Nat} {symbols : SymbolTable}
    {name first : String} {rest : List (Sign × String)}
    (form : marked.line.form = .expression name first rest) (kept : marked.kept = false) :
    emitLine labels symbols marked = .ok ([], symbols) := by
  simp [emitLine, form, kept, pure, Except.pure]

theorem emit_keptLines (omits : OmitsExpressions lines) (labels : Table Nat)
    (symbols : SymbolTable) :
    emit labels symbols (keptLines lines) = emit labels symbols lines := by
  apply emit_filter
  intro marked member kept symbols
  rcases omits marked member kept with ⟨name, first, rest, form⟩
  exact emitLine_omitted form kept

theorem size_omitted (omits : OmitsExpressions (marked :: lines)) (kept : marked.kept = false) :
    marked.size = 0 := by
  obtain ⟨name, first, rest, form⟩ := omits marked List.mem_cons_self kept
  simp [Marked.size, form, kept]

end Kept

/-! ## The layout of the lines that are kept -/

namespace Layout

variable {layout other next : Layout} {marked : Marked}

/-- A layout places its labels like another one, with no more variables. -/
structure Covers (layout other : Layout) : Prop where
  labels : other.labels = layout.labels
  size : other.size = layout.size
  declared : ∀ name ∈ other.declared.names, name ∈ layout.declared.names

/-- A line that is laid out in one layout is laid out in every layout that it
covers. -/
theorem Covers.place (covers : Covers layout other) (placed : layout.place marked = .ok next) :
    ∃ narrow, other.place marked = .ok narrow ∧ Covers next narrow := by
  obtain ⟨variableFresh, labelFresh⟩ := exists_place_iff.mp ⟨next, placed⟩
  have wide := placed_of_place placed
  rw [← covers.labels] at labelFresh
  obtain ⟨narrow, narrowPlace⟩ := exists_place_iff.mpr
    ⟨fun name declares member => variableFresh name declares (covers.declared name member),
      labelFresh⟩
  have small := placed_of_place narrowPlace
  refine ⟨narrow, narrowPlace, ?_⟩
  constructor
  case labels =>
    cases form : marked.line.form with
    | label name =>
        rw [(small.label name form).2, (wide.label name form).2, covers.labels, covers.size]
    | _ => rw [small.labels (by simp [form]), wide.labels (by simp [form]), covers.labels]
  case size => rw [small.size, wide.size, covers.size]
  case declared =>
    intro name member
    rw [small.names, List.mem_append] at member
    rw [wide.names, List.mem_append]
    exact member.imp_left (covers.declared name)

/-- An expression that is left out only declares its name. -/
theorem Covers.omit (covers : Covers layout other) (placed : Placed layout marked next)
    (unlabelled : ∀ name, marked.line.form ≠ .label name) (size : marked.size = 0) :
    Covers next other := by
  constructor
  case labels => rw [placed.labels unlabelled, covers.labels]
  case size => rw [placed.size, size, covers.size, Nat.add_zero]
  case declared =>
    intro name member
    rw [placed.names, List.mem_append]
    exact .inl (covers.declared name member)

/-- The lines that are kept are laid out with the labels of all the lines. -/
theorem exists_placeAll_keptLines {lines : List Marked} {final : Layout}
    (omits : OmitsExpressions lines) (covers : Covers layout other)
    (placed : layout.placeAll lines = .ok final) :
    ∃ narrow, other.placeAll (keptLines lines) = .ok narrow ∧ Covers final narrow := by
  induction lines generalizing layout other with
  | nil =>
      cases placed
      exact ⟨other, rfl, covers⟩
  | cons marked below ih =>
      rw [placeAll, List.foldlM_cons, bind_eq_ok_iff] at placed
      rcases placed with ⟨next, here, rest⟩
      by_cases kept : marked.kept = true
      · rcases covers.place here with ⟨narrow, narrowHere, covers⟩
        rcases ih omits.tail covers rest with ⟨last, narrowRest, covers⟩
        refine ⟨last, ?_, covers⟩
        rw [keptLines_cons_of_kept kept, placeAll, List.foldlM_cons, bind_eq_ok_iff]
        exact ⟨narrow, narrowHere, narrowRest⟩
      · rw [Bool.not_eq_true] at kept
        rw [keptLines_cons_of_omitted kept]
        rcases omits marked List.mem_cons_self kept with ⟨name, first, more, form⟩
        apply ih omits.tail _ rest
        exact covers.omit (placed_of_place here) (by simp [form]) (size_omitted omits kept)

end Layout

/-! ## Deleting the lines that are left out -/

theorem mark_false (lines : List Line) :
    (mark false lines).1 = lines.map fun line => ⟨line, true⟩ := by
  induction lines with
  | nil => rfl
  | cons line below ih =>
      simp only [mark, Bool.false_and]
      split <;> simp [ih]

section Source

variable {file source : String} {lines : List Line}

/-- Marked anew, the lines that are kept are all kept. -/
theorem marks_false_keptLines (read : Source.lines file source = .ok lines) (optimize : Bool) :
    marks false ((keptLines (marks optimize lines)).map (·.line)) =
      keptLines (marks optimize lines) := by
  have omits := (decided_marks read optimize).omitsExpressions
  have stays : (keptLines (marks optimize lines)).map (fun marked => ⟨marked.line, true⟩) =
      keptLines (marks optimize lines) := by
    conv_rhs => rw [← List.map_id (keptLines (marks optimize lines))]
    apply List.map_congr_left
    rintro ⟨line, kept⟩ member
    cases (List.mem_filter.mp member).2
    rfl
  have ended : upToHalt (marks optimize lines) = marks optimize lines := by
    apply upToHalt_eq_self
    intro marked member
    apply Source.isHalt_eq_false_of_mem_dropLast read
    rw [← map_line_marks read optimize, ← List.map_dropLast]
    exact List.mem_map_of_mem member
  rw [marks, mark_false, List.map_map, Function.comp_def, stays, upToHalt_keptLines omits, ended]

/-- Where no name is declared twice, the lines that are left when the expressions
with the names that are left out are deleted are those that are kept. -/
theorem withoutExpressions_droppedNames (read : Source.lines file source = .ok lines)
    (optimize : Bool) (nodup : (declaredNames (marks optimize lines)).Nodup) :
    withoutExpressions (droppedNames (marks optimize lines)) lines =
      (keptLines (marks optimize lines)).map (·.line) := by
  have decided := decided_marks read optimize
  calc
    withoutExpressions (droppedNames (marks optimize lines)) lines =
        withoutExpressions (droppedNames (marks optimize lines))
          ((marks optimize lines).map (·.line)) := by
      rw [map_line_marks read]
    _ = (keptLines (marks optimize lines)).map (·.line) := by
      rw [withoutExpressions, List.filter_map, keptLines]
      congr 1
      apply List.filter_congr
      intro marked member
      cases form : marked.line.form with
      | expression name first rest =>
          have dropped := mem_droppedNames_iff_of_mem nodup member
            (show marked.line.form.declares? = some name by simp [form, Form.declares?])
          cases kept : marked.kept <;> simp [form, kept, dropped]
      | _ => simp [form, decided.kept_of_ne member (by simp [form])]

theorem assemble_deleted {maxWords : Int} {code : List Emitted} {symbols : SymbolTable}
    {labels : Table Nat} {eliminated : List String} {implicitHalt : Bool} {program : Program}
    (assembled : assemble maxWords code symbols labels eliminated implicitHalt = .ok program) :
    assemble maxWords code symbols labels [] implicitHalt =
      .ok { program with eliminated := [] } := by
  simp only [assemble] at assembled ⊢
  by_cases large : maxWords < (code.length + (slots code).length : Nat)
  · rw [if_pos large] at assembled
    cases assembled
  · rw [if_neg large] at assembled ⊢
    cases assembled
    rfl

/-- The optimized program is the plain program of the lines without the
expressions that it leaves out. -/
theorem ofLines_withoutExpressions (read : Source.lines file source = .ok lines) {maxWords : Int}
    {terminated : Option Bool} {program : Program}
    (compiled : ofLines ⟨true, maxWords⟩ terminated lines = .ok program) :
    ofLines ⟨false, maxWords⟩ terminated (withoutExpressions program.eliminated lines) =
      .ok { program with eliminated := [] } := by
  obtain ⟨_, _, _, assembled⟩ := assembled_of_ofLines compiled
  have omits := (decided_marks read true).omitsExpressions
  simp only [ofLines, bind_eq_ok_iff] at compiled
  obtain ⟨layout, placed, ⟨body, symbols⟩, emitted, compiled⟩ := compiled
  obtain ⟨narrow, narrowPlaced, covers⟩ := Layout.exists_placeAll_keptLines omits
    (show Layout.Covers Layout.empty Layout.empty from ⟨rfl, rfl, fun _ member => member⟩) placed
  rw [assembled.eliminated, withoutExpressions_droppedNames read true assembled.nodup]
  simp only [ofLines, bind_eq_ok_iff, marks_false_keptLines read, droppedNames_keptLines,
    needsHalt_keptLines omits]
  refine ⟨narrow, narrowPlaced, (body, symbols), ?_, ?_⟩
  · rw [covers.labels, emit_keptLines omits, emitted]
  · rw [covers.labels]
    exact assemble_deleted compiled

end Source

/-! ## Fewer lines need less -/

/-- A line with the decision to keep it. -/
def Marked.keep (marked : Marked) : Marked :=
  { marked with kept := true }

section Keep

variable {marked : Marked} {lines : List Marked}

theorem Marked.size_le_keep : marked.size ≤ marked.keep.size := by
  obtain ⟨line, kept⟩ := marked
  cases form : line.form with
  | expression name first rest => cases kept <;> simp [Marked.size, Marked.keep, form]
  | _ => simp [Marked.size, Marked.keep, form]

theorem wordCount_le_keep : wordCount lines ≤ wordCount (lines.map Marked.keep) := by
  induction lines with
  | nil => exact Nat.le_refl _
  | cons marked below ih =>
      rw [List.map_cons, wordCount_cons, wordCount_cons]
      exact Nat.add_le_add Marked.size_le_keep ih

theorem Marked.mentions_subset_keep : marked.mentions ⊆ marked.keep.mentions := by
  intro name member
  obtain ⟨line, kept⟩ := marked
  cases form : line.form with
  | expression target first rest =>
      cases kept with
      | false => simp [Marked.mentions, form] at member
      | true => exact member
  | _ => simpa [Marked.mentions, Marked.keep, form] using member

theorem mentionedNames_subset_keep :
    mentionedNames lines ⊆ mentionedNames (lines.map Marked.keep) := by
  intro name member
  rw [mem_mentionedNames] at member ⊢
  rcases member with ⟨marked, memLines, mentioned⟩
  exact ⟨marked.keep, List.mem_map_of_mem memLines, Marked.mentions_subset_keep mentioned⟩

theorem declaredNames_keep : declaredNames (lines.map Marked.keep) = declaredNames lines := by
  rw [declaredNames, List.filterMap_map]
  rfl

theorem labelNames_keep : labelNames (lines.map Marked.keep) = labelNames lines := by
  rw [labelNames, List.filterMap_map]
  rfl

/-- Lines that are well formed when all of them are kept are well formed when
the expressions that nothing needs are left out. -/
theorem WellFormed.of_keep {maxWords : Int} {terminated : Bool} (decided : Decided true lines)
    (wellFormed : WellFormed ⟨false, maxWords⟩ terminated (lines.map Marked.keep)) :
    WellFormed ⟨true, maxWords⟩ terminated lines := by
  have here : ∀ {index : Nat} {marked : Marked}, lines[index]? = some marked →
      (lines.map Marked.keep)[index]? = some marked.keep := by
    intro index marked here
    rw [List.getElem?_map, here, Option.map_some]
  have above : ∀ index, declaredNames ((lines.map Marked.keep).take index) =
      declaredNames (lines.take index) := by
    intro index
    rw [← List.map_take, declaredNames_keep]
  constructor
  case decided => exact decided
  case declaredOnce => exact declaredNames_keep ▸ wellFormed.declaredOnce
  case labelledOnce => exact labelNames_keep ▸ wellFormed.labelledOnce
  case command =>
    intro index marked command operand there form
    rw [← above, ← labelNames_keep]
    exact wellFormed.command index marked.keep command operand (here there) form
  case terms =>
    intro index marked name first rest there form _
    rw [← above]
    exact wellFormed.terms index marked.keep name first rest (here there) form rfl
  case size =>
    have words : wordCount lines ≤ wordCount (lines.map Marked.keep) := wordCount_le_keep
    have names : (mentionedNames lines).card ≤ (mentionedNames (lines.map Marked.keep)).card :=
      Finset.card_le_card mentionedNames_subset_keep
    apply Int.le_trans _ wellFormed.size
    exact Int.ofNat_le.mpr (Nat.add_le_add (Nat.add_le_add_right words _) names)

end Keep

section Source

variable {file source : String} {lines : List Line}

theorem marks_false_eq_keep (read : Source.lines file source = .ok lines) (optimize : Bool) :
    marks false lines = (marks optimize lines).map Marked.keep := by
  rw [marks_eq_mark read, mark_false]
  conv_lhs => rw [← map_line_marks read optimize, List.map_map]
  rfl

/-- Whether a program gets a halt depends on its lines, not on which of them
are kept. -/
theorem ofLines_eq_some (read : Source.lines file source = .ok lines) (options : CompileOptions)
    (terminated : Option Bool) :
    ofLines options terminated lines =
      ofLines options (some (terminated.getD (lines.any (·.isHalt)))) lines := by
  have halts : (marks options.optimize lines).any (·.line.isHalt) = lines.any (·.isHalt) := by
    conv_rhs => rw [← map_line_marks read options.optimize]
    rw [List.any_map]
    rfl
  simp only [ofLines, needsHalt, halts, Option.getD_some]

/-- The instructions and the data of a program are as many as its lines ask
for. -/
theorem lengths_of_ofLines {options : CompileOptions} {terminated : Bool} {program : Program}
    (compiled : ofLines options (some terminated) lines = .ok program) :
    program.instructions.length =
        wordCount (marks options.optimize lines) + (if terminated then 0 else 1) ∧
      program.data.length = (mentionedNames (marks options.optimize lines)).card := by
  obtain ⟨layout, body, symbols, assembled⟩ := assembled_of_ofLines compiled
  have closed : program.code = close (!terminated) body := assembled.code
  constructor
  · rw [assembled.length_instructions, closed, length_close, assembled.length_body]
  · rw [assembled.data_eq, List.length_map, closed, length_slots assembled.emitted]

/-- Lines that are compiled as they stand are compiled with optimization too,
to no more instructions and no more data. -/
theorem exists_optimized (read : Source.lines file source = .ok lines) {maxWords : Int}
    {terminated : Option Bool} {plain : Program}
    (compiled : ofLines ⟨false, maxWords⟩ terminated lines = .ok plain) :
    ∃ optimized, ofLines ⟨true, maxWords⟩ terminated lines = .ok optimized ∧
      optimized.instructions.length ≤ plain.instructions.length ∧
      optimized.data.length ≤ plain.data.length := by
  rw [ofLines_eq_some read] at compiled ⊢
  have wellFormed := (exists_ofLines_iff (decided_marks read false)).mp ⟨plain, compiled⟩
  rw [marks_false_eq_keep read true] at wellFormed
  obtain ⟨optimized, made⟩ := (exists_ofLines_iff (decided_marks read true)).mpr
    (wellFormed.of_keep (decided_marks read true))
  obtain ⟨plainInstructions, plainData⟩ := lengths_of_ofLines compiled
  obtain ⟨instructions, data⟩ := lengths_of_ofLines made
  simp only [marks_false_eq_keep read true] at plainInstructions plainData
  refine ⟨optimized, made, ?_, ?_⟩
  · rw [instructions, plainInstructions]
    exact Nat.add_le_add_right wordCount_le_keep _
  · rw [data, plainData]
    exact Finset.card_le_card mentionedNames_subset_keep

/-- Optimizing is deleting lines. A program that is compiled with optimization
is compiled without it to the same words, variables, labels and halt when the
expressions that were left out are deleted from its lines.  Lines that are
compiled without optimization are compiled with it, to no more instructions and
no more data. -/
theorem optimize_eq_delete (read : Source.lines file source = .ok lines) (maxWords : Int)
    (terminated : Option Bool) :
    (∀ program, ofLines ⟨true, maxWords⟩ terminated lines = .ok program →
      ofLines ⟨false, maxWords⟩ terminated (withoutExpressions program.eliminated lines) =
        .ok { program with eliminated := [] }) ∧
    ∀ plain, ofLines ⟨false, maxWords⟩ terminated lines = .ok plain →
      ∃ optimized, ofLines ⟨true, maxWords⟩ terminated lines = .ok optimized ∧
        optimized.instructions.length ≤ plain.instructions.length ∧
        optimized.data.length ≤ plain.data.length :=
  ⟨fun _ compiled => ofLines_withoutExpressions read compiled,
    fun _ compiled => exists_optimized read compiled⟩

/-- A program with an expression that nothing needs. -/
theorem optimize_eq_delete_unneeded :
    ∃ lines optimized plain,
      Source.lines "unneeded" "a=1
b=a
WRITE a" = .ok lines ∧
      ofLines ⟨true, 100⟩ none lines = .ok optimized ∧ optimized.eliminated = ["b"] ∧
      ofLines ⟨false, 100⟩ none (withoutExpressions ["b"] lines) =
        .ok { optimized with eliminated := [] } ∧
      ofLines ⟨false, 100⟩ none lines = .ok plain ∧
      ∃ again, ofLines ⟨true, 100⟩ none lines = .ok again ∧
        again.instructions.length ≤ plain.instructions.length ∧
        again.data.length ≤ plain.data.length := by
  have read : ((Source.lines "unneeded" "a=1
b=a
WRITE a").map fun lines =>
      (((ofLines ⟨true, 100⟩ none lines).map (·.eliminated)).toOption,
        ((ofLines ⟨false, 100⟩ none lines).map fun _ => ()).toOption)).toOption =
      some (some ["b"], some ()) := by
    decide +kernel
  obtain ⟨lines, read, compiled⟩ := of_toOption_map_eq_some read
  obtain ⟨first, second⟩ := Prod.mk.inj compiled
  obtain ⟨optimized, optimizedMade, eliminated⟩ := of_toOption_map_eq_some first
  obtain ⟨plain, plainMade, _⟩ := of_toOption_map_eq_some second
  refine ⟨lines, optimized, plain, read, optimizedMade, eliminated, ?_, plainMade, ?_⟩
  · rw [← eliminated]
    exact (optimize_eq_delete read 100 none).1 optimized optimizedMade
  · exact (optimize_eq_delete read 100 none).2 plain plainMade

end Source

end DecimalMachine.Program
