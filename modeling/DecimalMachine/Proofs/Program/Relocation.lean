import DecimalMachine.Proofs.Occurrences
import DecimalMachine.Proofs.Program.WellFormed

/-!
# Relocated programs

The words of a program are its instructions and, behind them, one word for each
variable that they work on.  The variables have the addresses behind the
instructions in the order in which the instructions first refer to them.
-/

namespace DecimalMachine

namespace Program

open Semantics

section Emission

variable {labels : Table Nat} {symbols final : SymbolTable} {lines : List Marked}
  {code : List Emitted}

theorem introducedNames_sublist (lines : List Marked) :
    (introducedNames lines).Sublist (declaredNames lines) := by
  induction lines with
  | nil => exact .slnil
  | cons marked below ih =>
      rw [introducedNames_cons, declaredNames_cons]
      refine List.Sublist.append ?_ ih
      cases introduces : marked.introduces? with
      | none => exact List.nil_sublist _
      | some name => rw [introduces?_subset introduces]

end Emission

/-! ## Values -/

section Values

variable {lines : List Marked} {marked : Marked} {name : String}

/-- The literal of a variable is that of its line. -/
theorem literal?_of_variable (nodup : (declaredNames lines).Nodup) (member : marked ∈ lines)
    {value : Int} (form : marked.line.form = .variable name value) :
    literal? (lines.map (·.line)) name = some value := by
  cases found : literal? (lines.map (·.line)) name with
  | none =>
      have undeclared := List.findSome?_eq_none_iff.mp found _ (List.mem_map_of_mem member)
      simp [declaredLiteral?, form] at undeclared
  | some other =>
      obtain ⟨line, memLines, otherForm⟩ := exists_variable_of_literal? found
      obtain ⟨second, secondMem, rfl⟩ := List.mem_map.mp memLines
      have same := eq_of_declares?_eq nodup member secondMem (by rw [form]; rfl)
        (by rw [otherForm]; rfl)
      rw [← same, form] at otherForm
      cases otherForm
      rfl

/-- The name of an expression has no literal. -/
theorem literal?_of_expression (nodup : (declaredNames lines).Nodup) (member : marked ∈ lines)
    {first : String} {rest : List (Sign × String)}
    (form : marked.line.form = .expression name first rest) :
    literal? (lines.map (·.line)) name = none := by
  cases found : literal? (lines.map (·.line)) name with
  | none => rfl
  | some other =>
      obtain ⟨line, memLines, otherForm⟩ := exists_variable_of_literal? found
      obtain ⟨second, secondMem, rfl⟩ := List.mem_map.mp memLines
      have same := eq_of_declares?_eq nodup member secondMem (by rw [form]; rfl)
        (by rw [otherForm]; rfl)
      rw [← same, form] at otherForm
      cases otherForm

end Values

/-! ## Addresses -/

namespace Assembled

variable {maxWords : Int} {implicitHalt : Bool} {lines : List Marked} {layout : Layout}
  {body : List Emitted} {symbols : SymbolTable} {program : Program}

/-- A variable of the code has the address of its cell. -/
theorem find?_symbols
    (assembled : Assembled maxWords implicitHalt lines layout body symbols program) {name : String}
    {address : Int} :
    (∃ entry, program.symbols.find? name = some entry ∧ entry.value.address = some address) ↔
      ∃ index : Nat, (slots program.code)[index]? = some name ∧
        address = (program.code.length + index : Nat) := by
  have find : program.symbols.find? name = (symbols.find? name).map fun entry =>
      { entry with value :=
        { entry.value with
          address := (address? program.code.length (slots program.code) entry.name).map
            Int.ofNat } } := by
    rw [assembled.symbols, allocate, Table.find?_mapValues]
  rw [find]
  constructor
  · rintro ⟨_, relocated, placed⟩
    obtain ⟨entry, found, rfl⟩ := Option.map_eq_some_iff.mp relocated
    rw [Table.name_of_find? found, address?] at placed
    obtain ⟨_, cell, rfl⟩ := Option.map_eq_some_iff.mp placed
    obtain ⟨index, slot, rfl⟩ := Option.map_eq_some_iff.mp cell
    exact ⟨index, (idxOf?_eq_some_iff_getElem? (nodup_slots _)).mp slot, rfl⟩
  · rintro ⟨index, slot, rfl⟩
    obtain ⟨entry, found, _⟩ := assembled.declared (List.mem_of_getElem? slot)
    refine ⟨_, Option.map_eq_some_iff.mpr ⟨entry, found, rfl⟩, ?_⟩
    rw [Table.name_of_find? found, address?,
      (idxOf?_eq_some_iff_getElem? (nodup_slots _)).mpr slot]
    rfl

theorem nodup_names_symbols
    (assembled : Assembled maxWords implicitHalt lines layout body symbols program) :
    program.symbols.names.Nodup := by
  rw [assembled.symbols, allocate, Table.names_mapValues,
    names_of_emit assembled.emitted]
  exact assembled.nodup.sublist (introducedNames_sublist _)

/-- The reported addresses are those of the variables with a word, in the order
of the words. -/
theorem addresses_eq
    (assembled : Assembled maxWords implicitHalt lines layout body symbols program) :
    SymbolTable.addresses program.symbols = (slots program.code).mapIdx fun index name =>
      (name, ((program.code.length + index : Nat) : Int)) := by
  apply SymbolTable.addresses_eq assembled.nodup_names_symbols
  · rw [List.pairwise_iff_getElem]
    intro i j inside _ before
    simp only [List.getElem_mapIdx]
    omega
  · intro name address
    rw [assembled.find?_symbols, List.mem_mapIdx]
    constructor
    · rintro ⟨index, inside, same⟩
      cases same
      exact ⟨index, List.getElem?_eq_getElem inside, rfl⟩
    · rintro ⟨index, slot, rfl⟩
      obtain ⟨inside, rfl⟩ := List.getElem?_eq_some_iff.mp slot
      exact ⟨index, inside, rfl⟩

end Assembled

/-! ## Relocation -/

/-- How the words of a program are laid out, given its lines and the variables
that have a word, in the order of their words. -/
structure Relocated (options : CompileOptions) (lines : List Line) (compilation : Compilation)
    (names : List String) : Prop where
  words : compilation.words = compilation.program.instructions ++ compilation.program.data
  length : compilation.words.length = compilation.instructionCount + names.length
  /-- An instruction word is four digits: a code and an operand. -/
  instruction : ∀ word ∈ compilation.program.instructions,
    word.toList.length = 4 ∧ (∀ c ∈ word.toList, c.isDigit = true) ∧
      ∃ (opcode : Opcode) (operand : Nat), operand < Instruction.addressSpace ∧
        Instruction.ofText? word = some ⟨opcode.code, operand⟩
  /-- The variables are those that instructions refer to, each of them once. -/
  nodup : names.Nodup
  referenced : ∀ name, name ∈ names ↔ ∃ opcode : Opcode,
    opcode.isBranch = false ∧ opcode ≠ .halt ∧
      Emitted.access opcode name ∈ compilation.program.code
  /-- They stand in the order of first reference. -/
  order : names.Pairwise fun first second =>
    (compilation.program.code.filterMap Emitted.accessed?).idxOf first <
      (compilation.program.code.filterMap Emitted.accessed?).idxOf second
  /-- Their addresses are those of their words. -/
  address : ∀ (index : Nat) name, names[index]? = some name →
    ∃ entry, compilation.program.symbols.find? name = some entry ∧
      entry.value.address = some ((compilation.instructionCount + index : Nat) : Int)
  /-- No other variable has an address. -/
  unreferenced : ∀ entry ∈ compilation.program.symbols.entries, entry.name ∉ names →
    entry.value.address = none
  /-- The word of a variable is its literal, and that of an expression is zero. -/
  value : ∀ (index : Nat) name, names[index]? = some name →
    (∃ line ∈ lines, line.form.declares? = some name) ∧ ∀ line ∈ lines,
      (∀ value, line.form = .variable name value →
        compilation.words[compilation.instructionCount + index]? = some (Decimal.text value)) ∧
      ∀ first rest, line.form = .expression name first rest →
        compilation.words[compilation.instructionCount + index]? = some "0"
  /-- The operand of an instruction is the address of its variable. -/
  operand : ∀ (position : Nat) emitted, compilation.program.code[position]? = some emitted →
    emitted.opcode.isBranch = false → emitted.opcode ≠ .halt →
      ∃ (name : String) (index : Nat) (word : String),
        emitted = .access emitted.opcode name ∧ names[index]? = some name ∧
          compilation.program.instructions[position]? = some word ∧
          Instruction.ofText? word =
            some ⟨emitted.opcode.code, (compilation.instructionCount + index : Nat)⟩
  /-- The reported variables are those with an address, in this order. -/
  reported : compilation.variableAddresses = names.mapIdx fun index name =>
    (name, ((compilation.instructionCount + index : Nat) : Int))
  size : (compilation.words.length : Int) ≤ options.maxWords
  space : options.maxWords ≤ 100

namespace Accepted

variable {options : CompileOptions} {file source : String} {lines : List Line} {layout : Layout}
  {body : List Emitted} {symbols : SymbolTable} {program : Program}

/-- Instruction words are four digits, a code and an operand. -/
theorem instruction_word
    (accepted : Accepted options file source lines layout body symbols program) {text : String}
    (member : text ∈ program.instructions) :
    text.toList.length = 4 ∧ (∀ c ∈ text.toList, c.isDigit = true) ∧
      ∃ (opcode : Opcode) (operand : Nat), operand < Instruction.addressSpace ∧
        Instruction.ofText? text = some ⟨opcode.code, operand⟩ := by
  rw [accepted.assembled.instructions] at member
  obtain ⟨emitted, memCode, rfl⟩ := List.mem_map.mp member
  obtain ⟨operand, small, shape⟩ := accepted.executable.operand_lt memCode
  rw [← word, shape]
  refine ⟨?_, ?_, emitted.opcode, operand, small, ?_⟩
  · rw [Instruction.toList_render emitted.opcode.code_lt small]
    rfl
  · intro c mem
    exact Instruction.isDigit_of_mem_render emitted.opcode.code_lt small mem
  · exact Instruction.ofText?_render emitted.opcode.code_lt small

/-- An instruction that is neither a branch nor a halt works on a variable, and
its word has the address of that. -/
theorem operand_word
    (accepted : Accepted options file source lines layout body symbols program) {position : Nat}
    {emitted : Emitted} (here : program.code[position]? = some emitted)
    (branches : emitted.opcode.isBranch = false) (halts : emitted.opcode ≠ .halt) :
    ∃ (name : String) (index : Nat) (text : String),
      emitted = .access emitted.opcode name ∧ (slots program.code)[index]? = some name ∧
        program.instructions[position]? = some text ∧
        Instruction.ofText? text =
          some ⟨emitted.opcode.code, (program.code.length + index : Nat)⟩ := by
  have member := List.mem_of_getElem? here
  have fits := accepted.executable.fits emitted member
  obtain ⟨opcode, operand⟩ := emitted
  cases operand with
  | absent => exact absurd fits halts
  | target index =>
      rw [show opcode.isBranch = true from fits.1] at branches
      cases branches
  | «variable» name =>
      have slot := mem_slots_of_accessed member rfl
      have small := accepted.executable.cellOf_lt slot
      refine ⟨name, (slots program.code).idxOf name, _, rfl, ?_, ?_,
        Instruction.ofText?_render opcode.code_lt small⟩
      · rw [List.getElem?_eq_getElem (List.idxOf_lt_length_of_mem slot), List.getElem_idxOf]
      · rw [accepted.assembled.instructions, List.getElem?_map, here]
        rfl

theorem mem_slots_iff_referenced
    (accepted : Accepted options file source lines layout body symbols program) {name : String} :
    name ∈ slots program.code ↔ ∃ opcode : Opcode, opcode.isBranch = false ∧ opcode ≠ .halt ∧
      Emitted.access opcode name ∈ program.code := by
  rw [mem_slots_iff]
  constructor
  · rintro ⟨⟨opcode, operand⟩, member, accessed⟩
    cases operand with
    | «variable» other =>
        cases accessed
        obtain ⟨branches, halts⟩ := accepted.executable.fits _ member
        exact ⟨opcode, branches, halts, member⟩
    | _ => cases accessed
  · rintro ⟨opcode, _, _, member⟩
    exact ⟨_, member, rfl⟩

theorem find?_symbols
    (accepted : Accepted options file source lines layout body symbols program) {name : String}
    {address : Int} :
    (∃ entry, program.symbols.find? name = some entry ∧ entry.value.address = some address) ↔
      ∃ index : Nat, (slots program.code)[index]? = some name ∧
        address = (program.code.length + index : Nat) :=
  accepted.assembled.find?_symbols

/-- A variable without a word has no address. -/
theorem address_eq_none
    (accepted : Accepted options file source lines layout body symbols program)
    {entry : Entry Variable} (member : entry ∈ program.symbols.entries)
    (unreferenced : entry.name ∉ slots program.code) : entry.value.address = none := by
  rw [accepted.assembled.symbols, allocate, Table.mapValues] at member
  obtain ⟨declared, _, rfl⟩ := List.mem_map.mp member
  have missing := List.idxOf?_eq_none_iff.mpr unreferenced
  simp only [address?, missing, Option.map_none]

theorem addresses_eq
    (accepted : Accepted options file source lines layout body symbols program) :
    SymbolTable.addresses program.symbols = (slots program.code).mapIdx fun index name =>
      (name, ((program.code.length + index : Nat) : Int)) :=
  accepted.assembled.addresses_eq

/-- The word of a variable. -/
theorem getElem?_words
    (accepted : Accepted options file source lines layout body symbols program) {index : Nat}
    {name : String} (slot : (slots program.code)[index]? = some name) :
    program.words[program.code.length + index]? =
      some (Decimal.text ((literal? lines name).getD 0)) := by
  rw [accepted.assembled.words_eq, List.getElem?_append_right (by simp), List.length_map,
    Nat.add_sub_cancel_left, List.getElem?_map, slot, map_line_marks accepted.read]
  rfl

/-- The word of a variable is its literal. -/
theorem getElem?_words_variable
    (accepted : Accepted options file source lines layout body symbols program) {index : Nat}
    {name : String} (slot : (slots program.code)[index]? = some name) {line : Line}
    (member : line ∈ lines) {value : Int} (form : line.form = .variable name value) :
    program.words[program.code.length + index]? = some (Decimal.text value) := by
  rw [accepted.getElem?_words slot]
  have marks := map_line_marks accepted.read options.optimize
  rw [← marks] at member ⊢
  obtain ⟨marked, memMarks, rfl⟩ := List.mem_map.mp member
  rw [literal?_of_variable accepted.assembled.nodup memMarks form]
  rfl

/-- The word of an expression is zero. -/
theorem getElem?_words_expression
    (accepted : Accepted options file source lines layout body symbols program) {index : Nat}
    {name : String} (slot : (slots program.code)[index]? = some name) {line : Line}
    (member : line ∈ lines) {first : String} {rest : List (Sign × String)}
    (form : line.form = .expression name first rest) :
    program.words[program.code.length + index]? = some "0" := by
  rw [accepted.getElem?_words slot]
  have marks := map_line_marks accepted.read options.optimize
  rw [← marks] at member ⊢
  obtain ⟨marked, memMarks, rfl⟩ := List.mem_map.mp member
  rw [literal?_of_expression accepted.assembled.nodup memMarks form]
  rfl

theorem exists_declared
    (accepted : Accepted options file source lines layout body symbols program) {name : String}
    (slot : name ∈ slots program.code) : ∃ line ∈ lines, line.form.declares? = some name := by
  obtain ⟨entry, found, _⟩ := accepted.assembled.declared slot
  have introduced := Table.exists_find?_iff.mp ⟨entry, found⟩
  rw [names_of_emit accepted.assembled.emitted] at introduced
  obtain ⟨marked, member, declares⟩ :=
    List.mem_filterMap.mp (mem_declaredNames_of_introduced introduced)
  refine ⟨marked.line, ?_, declares⟩
  rw [← map_line_marks accepted.read options.optimize]
  exact List.mem_map_of_mem member

end Accepted

end Program

/-- A source that is compiled has its variables behind its instructions, in the
order of first reference. -/
theorem Compilation.relocated_of_ofSource {options : CompileOptions} {file source : String}
    {compilation : Compilation} (valid : options.check = .ok options)
    (compiled : Compilation.ofSource options file source = .ok compilation) :
    ∃ lines, Source.lines file source = .ok lines ∧
      Program.Relocated options lines compilation (Program.slots compilation.program.code) := by
  obtain ⟨lines, layout, body, symbols, accepted⟩ := Program.exists_accepted valid compiled
  have count : compilation.instructionCount = compilation.program.code.length :=
    accepted.assembled.length_instructions
  refine ⟨lines, accepted.read, ?_⟩
  constructor
  case words => rfl
  case length => rw [count]; exact accepted.assembled.length_words
  case instruction => exact fun word member => accepted.instruction_word member
  case nodup => exact Program.nodup_slots _
  case referenced => exact fun name => accepted.mem_slots_iff_referenced
  case order => exact pairwise_idxOf_eraseDups _
  case address =>
    intro index name slot
    rw [count]
    exact accepted.find?_symbols.mpr ⟨index, slot, rfl⟩
  case unreferenced => exact fun entry member => accepted.address_eq_none member
  case value =>
    intro index name slot
    rw [count]
    refine ⟨accepted.exists_declared (List.mem_of_getElem? slot), fun line member => ⟨?_, ?_⟩⟩
    · exact fun value => accepted.getElem?_words_variable slot member
    · exact fun first rest => accepted.getElem?_words_expression slot member
  case operand =>
    rw [count]
    exact fun position emitted here => accepted.operand_word here
  case reported => rw [count]; exact accepted.addresses_eq
  case size =>
    have length : compilation.words.length = Program.extent compilation.program.code :=
      accepted.assembled.length_words
    rw [length]
    exact accepted.assembled.size
  case space => exact accepted.small

theorem Compilation.relocated_of_ofSource_sum :
    CompileOptions.check {} = .ok {} ∧
      ∃ compilation,
        Compilation.ofSource {} "sum" "a=5\nb=-3\nunused=1\nc=b+a\nWRITE c\nHALT" =
            .ok compilation ∧
          compilation.words = ["2005", "3006", "2107", "1107", "4300", "-3", "5", "0"] ∧
          ∃ lines,
            Source.lines "sum" "a=5\nb=-3\nunused=1\nc=b+a\nWRITE c\nHALT" = .ok lines ∧
              Program.Relocated {} lines compilation (Program.slots compilation.program.code) := by
  have words : ((Compilation.ofSource {} "sum" "a=5\nb=-3\nunused=1\nc=b+a\nWRITE c\nHALT").map
      Compilation.words).toOption =
        some ["2005", "3006", "2107", "1107", "4300", "-3", "5", "0"] := by decide +kernel
  obtain ⟨compilation, compiled, words⟩ := of_toOption_map_eq_some words
  exact ⟨rfl, compilation, compiled, words, relocated_of_ofSource rfl compiled⟩

end DecimalMachine
