import DecimalMachine.Proofs.Program.Image
import DecimalMachine.Proofs.Program.Requirements

/-!
# Labels of emitted programs

Two walks count the words of a program: one lays out its lines and places the
labels, the other emits the code.  They agree on every label, so that a branch
goes to the first instruction that is emitted below the line of its label.
-/

namespace DecimalMachine.Program

/-- A program has the labels of its layout. -/
theorem labels_of_ofLines {options : CompileOptions} {terminated : Option Bool}
    {lines : List Line} {program : Program} {layout : Layout}
    (compiled : ofLines options terminated lines = .ok program)
    (placed : Layout.empty.placeAll (marks options.optimize lines) = .ok layout) :
    program.labels = layout.labels := by
  simp only [ofLines, bind_eq_ok_iff] at compiled
  obtain ⟨same, placedSame, _, _, compiled⟩ := compiled
  rw [placed] at placedSame
  cases placedSame
  simp only [assemble] at compiled
  split at compiled <;> cases compiled
  rfl

/-! ## Emission -/

section Emission

variable {labels : Table Nat} {symbols final : SymbolTable} {lines : List Marked}
  {code : List Emitted}

/-- Every emitted instruction is one of a line, behind those of the lines
above. -/
theorem exists_line_of_emit (emitted : emit labels symbols lines = .ok (code, final))
    {position : Nat} {instruction : Emitted} (here : code[position]? = some instruction) :
    ∃ index marked above known own next, lines[index]? = some marked ∧
      emit labels symbols (lines.take index) = .ok (above, known) ∧
      emitLine labels known marked = .ok (own, next) ∧ above.length ≤ position ∧
      own[position - above.length]? = some instruction := by
  induction lines generalizing symbols code position with
  | nil =>
      cases emitted
      cases here
  | cons first below ih =>
      obtain ⟨head, next, tail, line, rest, rfl⟩ := emit_cons_eq_ok_iff.mp emitted
      by_cases inHead : position < head.length
      · rw [List.getElem?_append_left inHead] at here
        exact ⟨0, first, [], symbols, head, next, rfl, rfl, line, Nat.zero_le _, here⟩
      · have behind := Nat.not_lt.mp inHead
        rw [List.getElem?_append_right behind] at here
        obtain ⟨index, marked, above, known, own, after, place, aboveOk, lineOk, behindAbove,
          inOwn⟩ := ih rest here
        refine ⟨index + 1, marked, head ++ above, known, own, after, place, ?_, lineOk, ?_, ?_⟩
        · rw [List.take_succ_cons]
          exact emit_cons_eq_ok_iff.mpr ⟨head, next, above, line, aboveOk, rfl⟩
        · rw [List.length_append]
          omega
        · rwa [List.length_append, ← Nat.sub_sub]

/-- A branch is the only instruction of its line, whose operand is a label. -/
theorem exists_label_of_branch {marked : Marked} {next : SymbolTable}
    (line : emitLine labels symbols marked = .ok (code, next)) {position : Nat}
    {instruction : Emitted} (here : code[position]? = some instruction)
    (branches : instruction.opcode.isBranch = true) :
    ∃ name entry, position = 0 ∧
      marked.line.form = .instruction instruction.opcode.mnemonic (some (labelOperand name)) ∧
      labels.find? name = some entry ∧ instruction.operand = .target entry.value := by
  have member := List.mem_of_getElem? here
  cases emits_of_emitLine line with
  | silent | literal | dropped => cases member
  | lowered =>
      obtain ⟨opcode, _, rfl, other, _⟩ := mem_of_mem_lower member
      rw [show opcode.isBranch = true from branches] at other
      cases other
  | halt =>
      cases List.mem_singleton.mp member
      cases branches
  | @branch command operand opcode entry form mnemonic _ label =>
      cases List.mem_singleton.mp member
      have first : position = 0 := by
        have inside := (List.getElem?_eq_some_iff.mp here).1
        simpa using inside
      obtain ⟨name, rfl⟩ : ∃ name, operand = labelOperand name := by
        have command := (exists_emitLine_iff.mp ⟨_, _, line⟩).command _ _ form
        exact exists_eq_labelOperand ((command.isLabelOperand_eq mnemonic).trans branches)
      rw [drop_labelOperand, String.ofList_toList] at label
      rw [Opcode.ofMnemonic?_eq_some_iff.mp mnemonic] at form
      exact ⟨name, entry, first, form, label, rfl⟩
  | @access _ _ opcode _ form mnemonic other =>
      cases List.mem_singleton.mp member
      rw [show opcode.isBranch = true from branches] at other
      cases other

theorem getElem?_of_close {implicitHalt : Bool} {position : Nat} {instruction : Emitted}
    (here : (close implicitHalt code)[position]? = some instruction)
    (going : instruction ≠ .halt) : code[position]? = some instruction := by
  unfold close at here
  split at here
  · rw [List.getElem?_append] at here
    split at here
    · exact here
    · have last := List.mem_singleton.mp (List.mem_of_getElem? here)
      exact absurd last going
  · exact here

end Emission

/-! ## Agreement -/

/-- A label stands where it is placed: at the number of words that are emitted
for the lines above its own. -/
structure StandsAt (program : Program) (implicitHalt : Bool) (lines : List Marked) (index : Nat)
    (name : String) (above below : List Emitted) : Prop where
  line : formAt? lines index = some (.label name)
  emitted : ∃ symbols final,
    emit program.labels .empty (lines.take index) = .ok (above, symbols) ∧
      emit program.labels symbols (lines.drop index) = .ok (below, final)
  code : program.code = close implicitHalt (above ++ below)
  placed : (program.labels.find? name).map (·.value) = some above.length

/-- The word of a branch stands behind those of the lines above its own, and its
operand is the index of its label. -/
structure BranchesTo (program : Program) (lines : List Marked) (position : Nat) (opcode : Opcode)
    (name : String) (target : Nat) : Prop where
  line : ∃ index above symbols,
    formAt? lines index = some (.instruction opcode.mnemonic (some (labelOperand name))) ∧
      emit program.labels .empty (lines.take index) = .ok (above, symbols) ∧
      above.length = position
  word : program.instructions[position]? = some (Instruction.render ⟨opcode.code, target⟩)
  decoded : target < Instruction.addressSpace →
    Instruction.ofText? (Instruction.render ⟨opcode.code, target⟩) = some ⟨opcode.code, target⟩

/-- The two walks over the lines of a program agree on its labels. -/
structure LabelsAgree (program : Program) (implicitHalt : Bool) (lines : List Marked) : Prop where
  label : ∀ index name, formAt? lines index = some (.label name) →
    ∃ above below, StandsAt program implicitHalt lines index name above below
  branch : ∀ position emitted, program.code[position]? = some emitted →
    emitted.opcode.isBranch = true → ∃ index name above below,
      StandsAt program implicitHalt lines index name above below ∧
        BranchesTo program lines position emitted.opcode name above.length

/-- A label points to the first instruction below it, or to the halt that the
program got. With neither it stands behind all instructions. -/
structure LabelsPoint (program : Program) (implicitHalt : Bool) (lines : List Marked) : Prop where
  inside : ∀ index name above below, StandsAt program implicitHalt lines index name above below →
    implicitHalt = true ∨ below ≠ [] →
      above.length < program.instructions.length ∧
        program.code[above.length]? = some (below.headD .halt)
  behind : ∀ index name above below, StandsAt program implicitHalt lines index name above below →
    implicitHalt = false → below = [] → above.length = program.instructions.length

/-- No label stands behind all instructions. -/
def LabelsInside (program : Program) (implicitHalt : Bool) (lines : List Marked) : Prop :=
  ∀ index name above below, StandsAt program implicitHalt lines index name above below →
    above.length < program.instructions.length

namespace Assembled

variable {maxWords : Int} {implicitHalt : Bool} {lines : List Marked} {layout : Layout}
  {body : List Emitted} {symbols : SymbolTable} {program : Program}

/-- Every label line stands where its label is placed. -/
theorem exists_standsAt
    (assembled : Assembled maxWords implicitHalt lines layout body symbols program)
    (labels : program.labels = layout.labels) {index : Nat} {name : String}
    (line : formAt? lines index = some (.label name)) :
    ∃ above below, StandsAt program implicitHalt lines index name above below := by
  obtain ⟨marked, here, form⟩ := Option.map_eq_some_iff.mp line
  obtain ⟨entry, found, value⟩ := Layout.exists_label_of_placeAll assembled.placed here form
  have emitted := assembled.emitted
  rw [← List.take_append_drop index lines] at emitted
  obtain ⟨above, below, known, aboveOk, belowOk, bodyEq⟩ := emit_append_eq_ok emitted
  refine ⟨above, below, line, ?_, bodyEq ▸ assembled.code, ?_⟩
  · rw [labels]
    exact ⟨known, symbols, aboveOk, belowOk⟩
  · rw [labels, found, Option.map_some, value, length_of_emit aboveOk]
    exact congrArg some (Nat.zero_add _)

theorem labelsAgree
    (assembled : Assembled maxWords implicitHalt lines layout body symbols program)
    (labels : program.labels = layout.labels) : LabelsAgree program implicitHalt lines where
  label := fun index name line => assembled.exists_standsAt labels line
  branch := by
    intro position emitted here branches
    have inBody : body[position]? = some emitted := by
      apply getElem?_of_close (assembled.code ▸ here)
      rintro rfl
      cases branches
    obtain ⟨index, marked, front, known, own, next, place, frontOk, line, behind, inOwn⟩ :=
      exists_line_of_emit assembled.emitted inBody
    obtain ⟨name, entry, first, form, found, operand⟩ :=
      exists_label_of_branch line inOwn branches
    have labelled : name ∈ labelNames lines := by
      have names : layout.labels.names = labelNames lines :=
        Layout.labelNames_of_placeAll assembled.placed
      exact names ▸ Table.exists_find?_iff.mp ⟨entry, found⟩
    obtain ⟨target, labelLine⟩ := exists_line_of_mem_labelNames labelled
    obtain ⟨above, below, stands⟩ := assembled.exists_standsAt labels labelLine
    have value : entry.value = above.length := by
      have placed := stands.placed
      rw [labels, found] at placed
      exact Option.some.inj placed
    refine ⟨target, name, above, below, stands, ⟨index, front, known, ?_, ?_, ?_⟩, ?_, ?_⟩
    · rw [formAt?, place, Option.map_some, form]
    · rwa [labels]
    · omega
    · rw [assembled.instructions, List.getElem?_map, here, Option.map_some, relocate, operand,
        ← value]
    · exact Instruction.ofText?_render emitted.opcode.code_lt

theorem labelsPoint
    (assembled : Assembled maxWords implicitHalt lines layout body symbols program) :
    LabelsPoint program implicitHalt lines where
  inside := by
    intro index name above below stands given
    rw [assembled.length_instructions, stands.code, close]
    cases below with
    | nil =>
        rw [if_pos (given.resolve_right (not_not_intro rfl))]
        simp
    | cons first more => split <;> simp
  behind := by
    intro index name above below stands unclosed nothing
    simp [assembled.length_instructions, stands.code, close, unclosed, nothing]

/-- The labels of a program that ends with a halt stand before instructions. -/
theorem labelsInside
    (assembled : Assembled maxWords implicitHalt lines layout body symbols program)
    (ends : Ends implicitHalt lines) : LabelsInside program implicitHalt lines := by
  intro index name above below stands
  obtain ⟨known, _, aboveOk, _⟩ := stands.emitted
  obtain ⟨marked, here, _⟩ := Option.map_eq_some_iff.mp stands.line
  rw [assembled.length_instructions, length_of_emit aboveOk]
  exact assembled.wordCount_take_lt ends (List.getElem?_eq_some_iff.mp here).1

end Assembled

/-- In every program that is compiled from the lines of a source the labels
agree with what is emitted and point to the first instruction below them, if
there is one. There always is, unless the program was told wrongly that its
source ends with a halt. -/
theorem labels_agree {options : CompileOptions} {file source : String} {terminated : Bool}
    {lines : List Line} {program : Program} (read : Source.lines file source = .ok lines)
    (compiled : ofLines options (some terminated) lines = .ok program) :
    LabelsAgree program (!terminated) (marks options.optimize lines) ∧
      LabelsPoint program (!terminated) (marks options.optimize lines) ∧
      ((terminated = true → Source.endsWithHalt source = true) →
        LabelsInside program (!terminated) (marks options.optimize lines)) := by
  obtain ⟨layout, body, symbols, assembled⟩ := assembled_of_ofLines compiled
  refine ⟨assembled.labelsAgree (labels_of_ofLines compiled assembled.placed),
    assembled.labelsPoint, ?_⟩
  intro told
  apply assembled.labelsInside
  cases terminated with
  | false => exact .inl rfl
  | true => exact told rfl ▸ ends_marks read options.optimize

theorem labels_agree_countdown :
    ∃ lines program,
      Source.lines "countdown"
          "n=0\none=1\nREAD n\n@a\nm=n-one\nSTORE n\nBRANCHNEG @b\nBRANCH @a\n@b\nWRITE m" =
            .ok lines ∧
        ofLines {} (some false) lines = .ok program ∧
        LabelsAgree program true (marks true lines) ∧ LabelsPoint program true (marks true lines) ∧
        LabelsInside program true (marks true lines) := by
  have placed : ((Source.lines "countdown"
      "n=0\none=1\nREAD n\n@a\nm=n-one\nSTORE n\nBRANCHNEG @b\nBRANCH @a\n@b\nWRITE m").map
        fun lines => ((ofLines {} (some false) lines).map fun program =>
          program.labels.entries.map (·.value)).toOption).toOption = some (some [1, 7]) := by
    decide +kernel
  obtain ⟨lines, read, placed⟩ := of_toOption_map_eq_some placed
  obtain ⟨program, compiled, _⟩ := of_toOption_map_eq_some placed
  obtain ⟨agree, point, inside⟩ := labels_agree read compiled
  exact ⟨lines, program, read, compiled, agree, point, inside (by rintro ⟨⟩)⟩

/-- A label at the end of a program that is told wrongly that its source ends with
a halt stands behind all instructions. -/
theorem not_labelsInside_of_last_label :
    ∃ lines program,
      Source.lines "last" "@a" = .ok lines ∧ Source.endsWithHalt "@a" = false ∧
        ofLines {} (some true) lines = .ok program ∧
        formAt? (marks true lines) 0 = some (.label "a") ∧
        (program.labels.find? "a").map (·.value) = some 0 ∧ program.instructions.length = 0 ∧
        ¬LabelsInside program false (marks true lines) := by
  refine ⟨[⟨.label "a", "@a", ⟨"last", 1⟩⟩],
    ⟨[], ⟨[]⟩, ⟨[⟨"a", ⟨"last", 1⟩, 0⟩]⟩, [], false, [], []⟩, by decide +kernel, by decide +kernel,
    by decide +kernel, by decide, by decide, rfl, ?_⟩
  intro inside
  exact absurd (inside 0 "a" [] [] ⟨by decide, ⟨.empty, .empty, rfl, rfl⟩, rfl, by decide⟩)
    (Nat.not_lt_zero _)

end DecimalMachine.Program
