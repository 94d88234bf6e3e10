import DecimalMachine.Proofs.Program.Equivariance
import DecimalMachine.Proofs.Program.Labels
import DecimalMachine.Proofs.Program.Omission

/-!
# Rearranged lines

The code of a program comes from the labels, the expressions and the
instructions of its lines alone.  Variables that are declared by a literal count
only by the values that they have, so that it does not matter where they are
declared, and blank lines and comments do not count at all.
-/

namespace DecimalMachine

namespace Form

/-- The forms that code comes from. -/
def isCode : Form → Bool
  | .label _ | .expression _ _ _ | .instruction _ _ => true
  | _ => false

/-- The forms other than blank lines and comments. -/
def isStatement : Form → Bool
  | .blank | .comment => false
  | _ => true

theorem eq_of_not_isCode {form : Form} (silent : form.isCode = false) :
    form = .blank ∨ form = .comment ∨ ∃ name value, form = .variable name value := by
  cases form with
  | blank => exact .inl rfl
  | comment => exact .inr (.inl rfl)
  | «variable» name value => exact .inr (.inr ⟨name, value, rfl⟩)
  | _ => cases silent

theorem eq_of_not_isStatement {form : Form} (silent : form.isStatement = false) :
    form = .blank ∨ form = .comment := by
  cases form with
  | blank => exact .inl rfl
  | comment => exact .inr rfl
  | _ => cases silent

end Form

namespace Program

open Semantics

/-! ## Code by lines -/

/-- The instruction of a command, by the instructions that labels stand for. -/
def commandCode (target : String → Option Nat) (command : String) (operand : Option String) :
    List Emitted :=
  match Opcode.ofMnemonic? command, operand with
  | some opcode, some operand =>
      if opcode.isBranch then
        (target (.ofList (operand.toList.drop 1))).toList.map fun index => ⟨opcode, .target index⟩
      else [.access opcode operand]
  | some opcode, none => [⟨opcode, .absent⟩]
  | none, _ => []

/-- The code of a line, by the instructions that labels stand for. -/
def Marked.code (target : String → Option Nat) (marked : Marked) : List Emitted :=
  match marked.line.form with
  | .expression name first rest => if marked.kept then lower name first rest else []
  | .instruction command operand => commandCode target command operand
  | _ => []

/-- The labels of lines, each with the number of words above it. -/
def placedLabels : Nat → List Marked → List (String × Nat)
  | _, [] => []
  | size, marked :: below =>
      (formLabel? marked.line.form).toList.map (·, size) ++ placedLabels (size + marked.size) below

/-- The instruction that a label stands for. -/
def target (labels : Table Nat) (name : String) : Option Nat :=
  (labels.find? name).map (·.value)

section Emission

variable {labels : Table Nat} {symbols next final : SymbolTable} {marked : Marked}
  {code : List Emitted} {lines : List Marked}

/-- What a line emits does not depend on the variables above it. -/
theorem Emits.eq_code (emits : Emits labels symbols marked code next) :
    code = marked.code (target labels) := by
  cases emits with
  | silent undeclared uncommanded =>
      unfold Marked.code
      split
      · next form => simp [form, Form.declares?] at undeclared
      · next form => exact absurd form (uncommanded _ _)
      · rfl
  | literal form => simp [Marked.code, form]
  | dropped form kept => simp [Marked.code, form, kept]
  | lowered form kept => simp [Marked.code, form, kept]
  | halt form mnemonic => simp [Marked.code, commandCode, form, mnemonic, Emitted.halt]
  | branch form mnemonic branch label =>
      simp only [Marked.code, commandCode, form, mnemonic, branch, target, label]
      rfl
  | access form mnemonic branch => simp [Marked.code, commandCode, form, mnemonic, branch]

theorem eq_flatMap_of_emit (emitted : emit labels symbols lines = .ok (code, final)) :
    code = lines.flatMap (Marked.code (target labels)) := by
  induction lines generalizing symbols code with
  | nil =>
      cases emitted
      rfl
  | cons marked below ih =>
      rcases emit_cons_eq_ok emitted with ⟨head, tail, next, emits, rest, rfl⟩
      rw [List.flatMap_cons, emits.eq_code, ih rest]

theorem labels_of_placeAll {layout last : Layout} (placed : layout.placeAll lines = .ok last) :
    (last.labels.entries.map fun entry => (entry.name, entry.value)) =
      (layout.labels.entries.map fun entry => (entry.name, entry.value)) ++
        placedLabels layout.size lines := by
  induction lines generalizing layout with
  | nil =>
      cases placed
      rw [placedLabels, List.append_nil]
  | cons marked below ih =>
      rcases Layout.placeAll_cons_eq_ok placed with ⟨next, step, rest⟩
      rw [ih rest, step.size, placedLabels, ← List.append_assoc]
      congr 1
      cases form : marked.line.form with
      | label name => simp [(step.label name form).2, Table.add, formLabel?]
      | _ => simp [step.labels (by simp [form]), formLabel?]

/-- What a label stands for is told by the names and the values of a table. -/
theorem target_eq (labels : Table Nat) (name : String) :
    target labels name =
      ((labels.entries.map fun entry => (entry.name, entry.value)).find? (·.1 == name)).map
        (·.2) := by
  rw [target, Table.find?, List.find?_map, Option.map_map]
  rfl

end Emission

/-! ## The lines that code comes from -/

section Filter

variable {left : Marked → Bool} {lines : List Marked}

theorem flatMap_code_filter (target : String → Option Nat)
    (nothing : ∀ marked ∈ lines, left marked = false → marked.code target = []) :
    (lines.filter left).flatMap (Marked.code target) = lines.flatMap (Marked.code target) := by
  induction lines with
  | nil => rfl
  | cons marked below ih =>
      have rest := ih fun other member => nothing other (List.mem_cons_of_mem marked member)
      cases stays : left marked with
      | true => rw [List.filter_cons_of_pos stays, List.flatMap_cons, List.flatMap_cons, rest]
      | false =>
          rw [List.filter_cons_of_neg (by simp [stays]), List.flatMap_cons,
            nothing marked List.mem_cons_self stays, rest, List.nil_append]

theorem placedLabels_filter
    (nothing : ∀ marked ∈ lines, left marked = false →
      formLabel? marked.line.form = none ∧ marked.size = 0) (size : Nat) :
    placedLabels size (lines.filter left) = placedLabels size lines := by
  induction lines generalizing size with
  | nil => rfl
  | cons marked below ih =>
      have rest := ih fun other member => nothing other (List.mem_cons_of_mem marked member)
      cases stays : left marked with
      | true => rw [List.filter_cons_of_pos stays, placedLabels, placedLabels, rest]
      | false =>
          rcases nothing marked List.mem_cons_self stays with ⟨unlabelled, empty⟩
          rw [List.filter_cons_of_neg (by simp [stays]), placedLabels, unlabelled, empty, rest]
          rfl

end Filter

/-- Lines with the same code, wherever they stand. -/
abbrev SameMarks (lines others : List Marked) : Prop :=
  List.Forall₂ (Renaming.id.RenamesMarked fun _ _ => True) lines others

section SameMarks

variable {lines others : List Marked}

theorem SameMarks.flatMap_code_eq (same : SameMarks lines others)
    (target : String → Option Nat) :
    others.flatMap (Marked.code target) = lines.flatMap (Marked.code target) := by
  induction same with
  | nil => rfl
  | cons renames _ ih =>
      rw [List.flatMap_cons, List.flatMap_cons, ih, Marked.code, renames.line.form,
        Renaming.form_id, renames.kept, Marked.code]

theorem SameMarks.placedLabels_eq (same : SameMarks lines others) (size : Nat) :
    placedLabels size others = placedLabels size lines := by
  induction same generalizing size with
  | nil => rfl
  | cons renames _ ih =>
      rw [placedLabels, placedLabels, ih, renames.size_eq, renames.line.form, Renaming.form_id]

end SameMarks

/-- Lines that say the same are the same lines, wherever they stand. -/
theorem renames_of_forms {lines others : List Line}
    (same : lines.map (·.form) = others.map (·.form)) :
    List.Forall₂ (Renaming.id.Renames fun _ _ => True) lines others := by
  have forms : List.Forall₂ Eq (lines.map (·.form)) (others.map (·.form)) := by
    rw [List.forall₂_eq_eq_eq, same]
  rw [List.forall₂_map_left_iff, List.forall₂_map_right_iff] at forms
  refine forms.imp fun line other same => ⟨?_, trivial⟩
  rw [Renaming.form_id, same]

/-- The forms that the code of lines comes from. -/
def codeForms (lines : List Line) : List Form :=
  (lines.filter (·.form.isCode)).map (·.form)

/-- The forms of lines other than blank lines and comments. -/
def statements (lines : List Line) : List Form :=
  (lines.filter (·.form.isStatement)).map (·.form)

/-- The lines of a decision that code comes from. -/
def codeMarks (lines : List Marked) : List Marked :=
  lines.filter (·.line.form.isCode)

/-- Lines with the same code are kept alike. -/
theorem sameMarks_of_codeForms {lines others : List Line} (optimize : Bool)
    (same : codeForms lines = codeForms others) :
    SameMarks (codeMarks (mark optimize lines).1) (codeMarks (mark optimize others).1) := by
  have quiet : ∀ {lines : List Line}, ∀ line ∈ lines, line.form.isCode = false →
      line.form.references = [] ∧ ∀ name first rest, line.form ≠ .expression name first rest := by
    intro lines line _ silent
    rcases Form.eq_of_not_isCode silent with form | form | ⟨name, value, form⟩ <;>
      simp [form, Form.references]
  have marks := (Renaming.renamesMarked_mark (renames_of_forms same) optimize).1
  rw [mark_filter optimize quiet, mark_filter optimize quiet] at marks
  exact marks

section CodeMarks

variable {lines : List Marked}

theorem flatMap_code_codeMarks (target : String → Option Nat) :
    (codeMarks lines).flatMap (Marked.code target) = lines.flatMap (Marked.code target) := by
  apply flatMap_code_filter
  intro marked _ silent
  rcases Form.eq_of_not_isCode silent with form | form | ⟨name, value, form⟩ <;>
    simp [Marked.code, form]

theorem placedLabels_codeMarks (size : Nat) :
    placedLabels size (codeMarks lines) = placedLabels size lines := by
  apply placedLabels_filter
  intro marked _ silent
  rcases Form.eq_of_not_isCode silent with form | form | ⟨name, value, form⟩ <;>
    simp [Marked.size, formLabel?, form]

theorem needsHalt_codeMarks (terminated : Option Bool) :
    needsHalt terminated (codeMarks lines) = needsHalt terminated lines := by
  apply needsHalt_filter
  intro marked _ silent
  rcases Form.eq_of_not_isCode silent with form | form | ⟨name, value, form⟩ <;>
    simp [Line.isHalt, Form.isHalt, form]

theorem droppedNames_codeMarks {optimize : Bool} (decided : Decided optimize lines) :
    droppedNames (codeMarks lines) = droppedNames lines := by
  apply droppedNames_filter
  intro marked member silent
  left
  apply decided.kept_of_ne member
  intro name first rest form
  rw [form] at silent
  cases silent

end CodeMarks

/-! ## Literals -/

/-- Variables that are declared once have the same literals, wherever they are
declared. -/
theorem literal?_eq_of_iff {lines others : List Marked} (nodup : (declaredNames lines).Nodup)
    (otherNodup : (declaredNames others).Nodup)
    (same : ∀ name value, (∃ line ∈ lines.map (·.line), line.form = .variable name value) ↔
      ∃ line ∈ others.map (·.line), line.form = .variable name value) (name : String) :
    literal? (lines.map (·.line)) name = literal? (others.map (·.line)) name := by
  have some_of : ∀ {lines others : List Marked}, (declaredNames others).Nodup →
      (∀ name value, (∃ line ∈ lines.map (·.line), line.form = .variable name value) →
        ∃ line ∈ others.map (·.line), line.form = .variable name value) → ∀ {value : Int},
      literal? (lines.map (·.line)) name = some value →
        literal? (others.map (·.line)) name = some value := by
    intro lines others nodup carries value found
    rcases carries name value (exists_variable_of_literal? found) with ⟨line, member, form⟩
    rcases List.mem_map.mp member with ⟨marked, memLines, rfl⟩
    exact literal?_of_variable nodup memLines form
  apply Option.ext
  intro value
  constructor
  · exact some_of otherNodup fun name value => (same name value).mp
  · exact some_of nodup fun name value => (same name value).mpr

/-! ## Programs of rearranged lines -/

/-- Programs that are the same up to where their names are declared. -/
structure Agree (program other : Program) : Prop where
  words : other.words = program.words
  instructions : other.instructions = program.instructions
  addresses : SymbolTable.addresses other.symbols = SymbolTable.addresses program.symbols
  labels : (other.labels.entries.map fun entry => (entry.name, entry.value)) =
    program.labels.entries.map fun entry => (entry.name, entry.value)
  eliminated : other.eliminated = program.eliminated
  implicitHalt : other.implicitHalt = program.implicitHalt

theorem implicitHalt_of_ofLines {options : CompileOptions} {terminated : Option Bool}
    {lines : List Line} {program : Program}
    (compiled : ofLines options terminated lines = .ok program) :
    program.implicitHalt = needsHalt terminated (marks options.optimize lines) := by
  simp only [ofLines, bind_eq_ok_iff] at compiled
  rcases compiled with ⟨_, _, _, _, made⟩
  simp only [assemble] at made
  split at made <;> cases made
  rfl

section Source

variable {file otherFile source otherSource : String} {lines others : List Line}

/-- Lines with the same code and the same literals are compiled to the same
program. -/
theorem agree_of_codeForms (read : Source.lines file source = .ok lines)
    (otherRead : Source.lines otherFile otherSource = .ok others)
    {options : CompileOptions} {terminated : Option Bool} {program other : Program}
    (same : codeForms lines = codeForms others)
    (literals : ∀ name value, (∃ line ∈ lines, line.form = .variable name value) ↔
      ∃ line ∈ others, line.form = .variable name value)
    (compiled : ofLines options terminated lines = .ok program)
    (otherCompiled : ofLines options terminated others = .ok other) : Agree program other := by
  rcases assembled_of_ofLines compiled with ⟨layout, body, symbols, assembled⟩
  rcases assembled_of_ofLines otherCompiled with
    ⟨otherLayout, otherBody, otherSymbols, otherAssembled⟩
  have marks := sameMarks_of_codeForms options.optimize same
  rw [← marks_eq_mark read, ← marks_eq_mark otherRead] at marks
  have labels : (other.labels.entries.map fun entry => (entry.name, entry.value)) =
      program.labels.entries.map fun entry => (entry.name, entry.value) := by
    rw [labels_of_ofLines compiled assembled.placed,
      labels_of_ofLines otherCompiled otherAssembled.placed,
      labels_of_placeAll assembled.placed, labels_of_placeAll otherAssembled.placed,
      ← placedLabels_codeMarks, marks.placedLabels_eq, placedLabels_codeMarks]
  have targets : target otherLayout.labels = target layout.labels := by
    funext name
    rw [target_eq, target_eq, ← labels_of_ofLines compiled assembled.placed,
      ← labels_of_ofLines otherCompiled otherAssembled.placed, labels]
  have halts : needsHalt terminated (Program.marks options.optimize others) =
      needsHalt terminated (Program.marks options.optimize lines) := by
    rw [← needsHalt_codeMarks, Renaming.needsHalt_renamed marks, needsHalt_codeMarks]
  have code : other.code = program.code := by
    rw [assembled.code, otherAssembled.code, halts, eq_flatMap_of_emit assembled.emitted,
      eq_flatMap_of_emit otherAssembled.emitted, targets, ← flatMap_code_codeMarks,
      marks.flatMap_code_eq, flatMap_code_codeMarks]
  have instructions : other.instructions = program.instructions := by
    rw [assembled.instructions, otherAssembled.instructions, code]
  have data : other.data = program.data := by
    rw [assembled.data_eq, otherAssembled.data_eq, code]
    apply List.map_congr_left
    intro name _
    rw [literal?_eq_of_iff otherAssembled.nodup assembled.nodup]
    rw [map_line_marks read, map_line_marks otherRead]
    exact fun name value => (literals name value).symm
  constructor
  case words => rw [words, words, instructions, data]
  case instructions => exact instructions
  case addresses => rw [assembled.addresses_eq, otherAssembled.addresses_eq, code]
  case labels => exact labels
  case eliminated =>
    rw [assembled.eliminated, otherAssembled.eliminated,
      ← droppedNames_codeMarks (decided_marks read options.optimize),
      ← droppedNames_codeMarks (decided_marks otherRead options.optimize),
      Renaming.droppedNames_renamed marks]
    exact List.map_id _
  case implicitHalt =>
    rw [implicitHalt_of_ofLines compiled, implicitHalt_of_ofLines otherCompiled, halts]

end Source

/-! ## Blank lines and comments -/

/-- Blank lines and comments are passed over. -/
theorem ofLines_filter_isStatement (options : CompileOptions) (terminated : Option Bool)
    (lines : List Line) :
    ofLines options terminated (lines.filter (·.form.isStatement)) =
      ofLines options terminated lines := by
  have silent : ∀ {marked : Marked}, marked.line.form.isStatement = false →
      marked.line.form = .blank ∨ marked.line.form = .comment := Form.eq_of_not_isStatement
  have marks : marks options.optimize (lines.filter (·.form.isStatement)) =
      (marks options.optimize lines).filter (·.line.form.isStatement) := by
    rw [Program.marks, mark_filter, upToHalt_filter, Program.marks]
    · intro marked _ stays
      rcases silent stays with form | form <;> simp [Line.isHalt, Form.isHalt, form]
    · intro line _ stays
      rcases Form.eq_of_not_isStatement stays with form | form <;>
        simp [form, Form.references]
  have placed : ∀ layout : Layout,
      layout.placeAll ((Program.marks options.optimize lines).filter (·.line.form.isStatement)) =
        layout.placeAll (Program.marks options.optimize lines) := by
    apply Layout.placeAll_filter
    intro marked _ stays layout
    rcases silent stays with form | form <;> simp [Layout.place, Marked.size, form] <;> rfl
  have emitted : ∀ (labels : Table Nat) (symbols : SymbolTable),
      emit labels symbols ((Program.marks options.optimize lines).filter
          (·.line.form.isStatement)) =
        emit labels symbols (Program.marks options.optimize lines) := by
    intro labels
    apply emit_filter
    intro marked _ stays symbols
    rcases silent stays with form | form <;> simp [emitLine, form] <;> rfl
  have halts : needsHalt terminated
      ((Program.marks options.optimize lines).filter (·.line.form.isStatement)) =
        needsHalt terminated (Program.marks options.optimize lines) := by
    apply needsHalt_filter
    intro marked _ stays
    rcases silent stays with form | form <;> simp [Line.isHalt, Form.isHalt, form]
  have dropped : droppedNames
      ((Program.marks options.optimize lines).filter (·.line.form.isStatement)) =
        droppedNames (Program.marks options.optimize lines) := by
    apply droppedNames_filter
    intro marked _ stays
    right
    rcases silent stays with form | form <;> simp [Form.declares?, form]
  simp only [ofLines, marks, placed, emitted, halts, dropped]

/-- Lines with the same statements are compiled or refused alike. -/
theorem exists_ofLines_iff_of_statements (options : CompileOptions) (terminated : Option Bool)
    {lines others : List Line} (same : statements lines = statements others) :
    (∃ program, ofLines options terminated lines = .ok program) ↔
      ∃ other, ofLines options terminated others = .ok other := by
  rw [← ofLines_filter_isStatement, ← ofLines_filter_isStatement options terminated others]
  exact (Renaming.corresponds_ofLines (renames_of_forms same) options terminated).exists_ok_iff

/-- It does not matter where variables are declared by their values.  Lines with
the same labels, expressions and instructions in the same order and with the
same values of variables are compiled to the same program wherever they are
compiled, and blank lines and comments do not decide whether they are. -/
theorem ofLines_rearranged {file otherFile source otherSource : String}
    {lines others : List Line} (read : Source.lines file source = .ok lines)
    (otherRead : Source.lines otherFile otherSource = .ok others) (options : CompileOptions)
    (terminated : Option Bool) :
    (codeForms lines = codeForms others →
      (∀ name value, (∃ line ∈ lines, line.form = .variable name value) ↔
        ∃ line ∈ others, line.form = .variable name value) →
      ∀ program other, ofLines options terminated lines = .ok program →
        ofLines options terminated others = .ok other → Agree program other) ∧
    (statements lines = statements others →
      ((∃ program, ofLines options terminated lines = .ok program) ↔
        ∃ other, ofLines options terminated others = .ok other)) :=
  ⟨fun same literals _ _ compiled otherCompiled =>
      agree_of_codeForms read otherRead same literals compiled otherCompiled,
    fun same => exists_ofLines_iff_of_statements options terminated same⟩

theorem codeForms_eq (lines : List Line) :
    codeForms lines = (lines.map (·.form)).filter Form.isCode := by
  rw [codeForms, List.filter_map]
  rfl

theorem statements_eq (lines : List Line) :
    statements lines = (lines.map (·.form)).filter Form.isStatement := by
  rw [statements, List.filter_map]
  rfl

/-- The variables of a loop are declared in the other order, between a branch and
its label, or there are comments in it. -/
theorem ofLines_rearranged_loop :
    ∃ lines moved explained program other,
      Source.lines "loop" "a=3\nb=1\n@top\nc=a-b\nWRITE c\nBRANCH @top" = .ok lines ∧
      Source.lines "moved" "@top\nb=1\na=3\nc=a-b\nWRITE c\nBRANCH @top" = .ok moved ∧
      Source.lines "explained" "a=3\n\nb=1\n> loop\n@top\nc=a-b\nWRITE c\nBRANCH @top" =
        .ok explained ∧
      ofLines {} none lines = .ok program ∧ ofLines {} none moved = .ok other ∧
      Agree program other ∧ ∃ again, ofLines {} none explained = .ok again := by
  have compiled : ((Source.lines "loop" "a=3\nb=1\n@top\nc=a-b\nWRITE c\nBRANCH @top").map
      fun lines => (((ofLines {} none lines).map fun _ => ()).toOption,
        lines.map (·.form))).toOption =
      some (some (), [.variable "a" 3, .variable "b" 1, .label "top",
        .expression "c" "a" [(.minus, "b")], .instruction "WRITE" (some "c"),
        .instruction "BRANCH" (some "@top")]) := by
    decide +kernel
  have movedCompiled : ((Source.lines "moved"
      "@top\nb=1\na=3\nc=a-b\nWRITE c\nBRANCH @top").map
      fun lines => (((ofLines {} none lines).map fun _ => ()).toOption,
        lines.map (·.form))).toOption =
      some (some (), [.label "top", .variable "b" 1, .variable "a" 3,
        .expression "c" "a" [(.minus, "b")], .instruction "WRITE" (some "c"),
        .instruction "BRANCH" (some "@top")]) := by
    decide +kernel
  have explainedRead : ((Source.lines "explained"
      "a=3\n\nb=1\n> loop\n@top\nc=a-b\nWRITE c\nBRANCH @top").map
      fun lines => lines.map (·.form)).toOption =
      some [.variable "a" 3, .blank, .variable "b" 1, .comment, .label "top",
        .expression "c" "a" [(.minus, "b")], .instruction "WRITE" (some "c"),
        .instruction "BRANCH" (some "@top")] := by
    decide +kernel
  rcases of_toOption_map_eq_some compiled with ⟨lines, read, made⟩
  rcases Prod.mk.inj made with ⟨made, forms⟩
  rcases of_toOption_map_eq_some made with ⟨program, made, _⟩
  rcases of_toOption_map_eq_some movedCompiled with ⟨moved, movedRead, movedMade⟩
  rcases Prod.mk.inj movedMade with ⟨movedMade, movedForms⟩
  rcases of_toOption_map_eq_some movedMade with ⟨other, movedMade, _⟩
  rcases of_toOption_map_eq_some explainedRead with ⟨explained, explainedRead, explainedForms⟩
  refine ⟨lines, moved, explained, program, other, read, movedRead, explainedRead, made,
    movedMade, ?_, ?_⟩
  · refine (ofLines_rearranged read movedRead {} none).1 ?_ ?_ program other made movedMade
    · rw [codeForms_eq, codeForms_eq, forms, movedForms]
      rfl
    · intro name value
      have declared : ∀ lines : List Line, (∃ line ∈ lines, line.form = .variable name value) ↔
          Form.variable name value ∈ lines.map (·.form) := fun _ => List.mem_map.symm
      rw [declared, declared, forms, movedForms]
      simp [or_comm]
  · refine ((ofLines_rearranged read explainedRead {} none).2 ?_).mp ⟨program, made⟩
    rw [statements_eq, statements_eq, forms, explainedForms]
    rfl

end Program

end DecimalMachine
