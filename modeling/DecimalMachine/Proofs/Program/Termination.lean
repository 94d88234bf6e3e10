import DecimalMachine.Proofs.Program.Relocation
import DecimalMachine.Proofs.Source.Truncation

/-!
# Terminated programs

A program has one halt at its end, and two where its lines end with a halt
command but its source goes on: the second one is then implicit.  The implicit
halt moves every variable by one cell and changes nothing else.
-/

namespace DecimalMachine

namespace Program

/-! ## The halts of the code -/

section Emission

variable {labels : Table Nat} {symbols next final : SymbolTable} {marked : Marked}
  {code : List Emitted} {lines : List Marked}

/-- Only a halt command emits a halt. -/
theorem Emits.isHalt_of_mem (emits : Emits labels symbols marked code next)
    (member : .halt ∈ code) : marked.line.isHalt = true := by
  cases emits with
  | silent | literal | dropped => cases member
  | lowered =>
      obtain ⟨opcode, name, same, _⟩ := mem_of_mem_lower member
      cases same
  | halt form mnemonic =>
      rw [Line.isHalt, form, Opcode.ofMnemonic?_eq_some_iff.mp mnemonic]
      rfl
  | branch form mnemonic branches =>
      cases List.mem_singleton.mp member
  | access =>
      cases List.mem_singleton.mp member

theorem halt_notMem_of_emit (emitted : emit labels symbols lines = .ok (code, final))
    (going : ∀ marked ∈ lines, marked.line.isHalt = false) : .halt ∉ code := by
  induction lines generalizing symbols code with
  | nil =>
      cases emitted
      exact List.not_mem_nil
  | cons marked below ih =>
      obtain ⟨head, tail, next, emits, rest, rfl⟩ := emit_cons_eq_ok emitted
      intro member
      rcases List.mem_append.mp member with member | member
      · have halt := emits.isHalt_of_mem member
        rw [going marked List.mem_cons_self] at halt
        cases halt
      · exact ih rest (fun other below => going other (List.mem_cons_of_mem _ below)) member

/-- Where only the last line can be a halt command, its halt is the last one of
the code. -/
theorem exists_front_of_emit (emitted : emit labels symbols lines = .ok (code, final))
    (going : ∀ marked ∈ lines.dropLast, marked.line.isHalt = false) :
    ∃ front, .halt ∉ front ∧
      code = front ++ List.replicate (if lines.any (·.line.isHalt) then 1 else 0) .halt := by
  rcases List.eq_nil_or_concat' lines with rfl | ⟨above, last, rfl⟩
  · cases emitted
    exact ⟨[], List.not_mem_nil, rfl⟩
  · rw [List.dropLast_concat] at going
    by_cases halt : last.line.isHalt = true
    · obtain ⟨head, tail, next, front, lastLine, rfl⟩ := emit_append_eq_ok emitted
      obtain ⟨first, rest, after, emits, nothing, rfl⟩ := emit_cons_eq_ok lastLine
      cases nothing
      refine ⟨head, halt_notMem_of_emit front going, ?_⟩
      rw [emits.eq_halt_of_isHalt halt, if_pos (by simp [halt])]
      simp
    · have none : ∀ marked ∈ above ++ [last], marked.line.isHalt = false := by
        intro marked member
        rcases List.mem_append.mp member with member | member
        · exact going marked member
        · cases List.mem_singleton.mp member
          exact Bool.eq_false_iff.mpr halt
      refine ⟨code, halt_notMem_of_emit emitted none, ?_⟩
      rw [if_neg]
      · simp
      · rw [Bool.not_eq_true, List.any_eq_false]
        exact fun marked member => by simp [none marked member]

end Emission

/-- The number of halts at the end of a program: one, and one more where lines
that end with a halt command are followed by something else. -/
def haltCount (source : String) : Nat :=
  if (Text.lines source).any Source.isHaltText && !Source.endsWithHalt source then 2 else 1

section Accepted

variable {options : CompileOptions} {file source : String} {lines : List Line} {layout : Layout}
  {body : List Emitted} {symbols : SymbolTable} {program : Program}

/-- The code of an accepted source ends with its halts, and has no other. -/
theorem Accepted.exists_code_eq
    (accepted : Accepted options file source lines layout body symbols program) :
    ∃ front, .halt ∉ front ∧ program.code = front ++ List.replicate (haltCount source) .halt := by
  have marked := map_line_marks accepted.read options.optimize
  have closed : program.code = close (!Source.endsWithHalt source) body := accepted.assembled.code
  have going : ∀ marked ∈ (marks options.optimize lines).dropLast, marked.line.isHalt = false := by
    intro other member
    apply Source.isHalt_eq_false_of_mem_dropLast accepted.read
    rw [← marked, ← List.map_dropLast]
    exact List.mem_map_of_mem member
  have halts : (marks options.optimize lines).any (·.line.isHalt) =
      (Text.lines source).any Source.isHaltText := by
    rw [Bool.eq_iff_iff, List.any_eq_true, List.any_eq_true,
      ← Source.exists_isHalt_iff accepted.read]
    conv_rhs => rw [← marked]
    simp
  obtain ⟨front, unhalted, split⟩ := exists_front_of_emit accepted.assembled.emitted going
  refine ⟨front, unhalted, ?_⟩
  rw [closed, split, halts, haltCount]
  by_cases ends : Source.endsWithHalt source = true
  · have halted : (Text.lines source).any Source.isHaltText = true := by
      obtain ⟨last, lastLine, halt⟩ := Source.exists_isHalt_of_endsWithHalt accepted.read ends
      rw [List.any_eq_true, ← Source.exists_isHalt_iff accepted.read]
      exact ⟨last, List.mem_of_getLast? lastLine, halt⟩
    simp [close, ends, halted]
  · rw [Bool.not_eq_true] at ends
    cases (Text.lines source).any Source.isHaltText <;> simp [close, ends]

/-- The halts of an accepted source are the last ones of its instructions. -/
theorem Accepted.getElem?_code_eq_halt_iff
    (accepted : Accepted options file source lines layout body symbols program) {index : Nat} :
    program.code[index]? = some .halt ↔
      index < program.code.length ∧ program.code.length ≤ index + haltCount source := by
  obtain ⟨front, unhalted, split⟩ := accepted.exists_code_eq
  rw [split, List.length_append, List.length_replicate]
  by_cases inside : index < front.length
  · rw [List.getElem?_append_left inside]
    constructor
    · intro here
      exact absurd (List.mem_of_getElem? here) unhalted
    · omega
  · rw [List.getElem?_append_right (Nat.not_lt.mp inside), List.getElem?_replicate]
    constructor
    · intro here
      split at here
      · omega
      · cases here
    · rintro ⟨below, _⟩
      rw [if_pos (by omega)]

/-- A word of an accepted source that decodes to a halt is that of a halt. -/
theorem Accepted.eq_halt_of_ofText?
    (accepted : Accepted options file source lines layout body symbols program)
    {emitted : Emitted} (member : emitted ∈ program.code) {operand : Int}
    (decoded : Instruction.ofText? (word program.code emitted).render =
      some ⟨Opcode.halt.code, operand⟩) : emitted = .halt := by
  have fits := accepted.executable.fits emitted member
  obtain ⟨number, small, shape⟩ := accepted.executable.operand_lt member
  rw [shape, Instruction.ofText?_render emitted.opcode.code_lt small] at decoded
  have code : (emitted.opcode.code : Int) = Opcode.halt.code := by
    injection decoded with same
    injection same
  have halt : emitted.opcode = .halt := by
    have found := Opcode.ofCode?_code emitted.opcode
    rw [code, Opcode.ofCode?_code] at found
    exact (Option.some.inj found).symm
  obtain ⟨opcode, target⟩ := emitted
  cases halt
  cases target with
  | absent => rfl
  | target index => exact absurd fits.1 Bool.false_ne_true
  | «variable» name => exact absurd rfl fits.2

end Accepted

/-! ## One more halt -/

section Close

variable {code : List Emitted}

/-- A halt at the end works on no variable, so that the variables stay in their
order. -/
theorem slots_append_halt : slots (code ++ [.halt]) = slots code := by
  have halt : Emitted.halt.accessed? = none := rfl
  simp [slots, List.filterMap_append, halt]

/-- The operand of an instruction below one more halt: that of a variable is one
larger. -/
def shifted (opcode : Opcode) (operand : Nat) : Nat :=
  if opcode.isBranch = true ∨ opcode = .halt then operand else operand + 1

theorem word_append_halt {emitted : Emitted} {size operand : Nat} (fits : emitted.Fits size)
    (here : word code emitted = ⟨emitted.opcode.code, operand⟩) :
    word (code ++ [.halt]) emitted =
      ⟨emitted.opcode.code, shifted emitted.opcode operand⟩ := by
  obtain ⟨opcode, target⟩ := emitted
  simp only [word, relocate, slots_append_halt, List.length_append, List.length_singleton,
    Instruction.mk.injEq, true_and] at here ⊢
  cases target with
  | absent =>
      rw [shifted, if_pos (.inr fits)]
      exact here
  | target index =>
      rw [shifted, if_pos (.inl fits.1)]
      exact here
  | «variable» name =>
      rw [shifted, if_neg]
      · simp only at here ⊢
        omega
      · rintro (branches | halts)
        · rw [show opcode.isBranch = false from fits.1] at branches
          cases branches
        · exact fits.2 halts

/-- The operands of an executable program stay in the address space when it gets
one more halt. -/
theorem Executable.exists_shifted (executable : Executable code)
    (longer : Executable (code ++ [.halt])) {emitted : Emitted} (member : emitted ∈ code) :
    ∃ operand : Nat, shifted emitted.opcode operand < Instruction.addressSpace ∧
      word code emitted = ⟨emitted.opcode.code, operand⟩ ∧
      word (code ++ [.halt]) emitted = ⟨emitted.opcode.code, shifted emitted.opcode operand⟩ := by
  obtain ⟨operand, _, shape⟩ := executable.operand_lt member
  have longerShape := word_append_halt (executable.fits emitted member) shape
  obtain ⟨bound, small, same⟩ := longer.operand_lt (List.mem_append_left _ member)
  rw [longerShape] at same
  injection same with _ same
  exact ⟨operand, Int.ofNat.inj same ▸ small, shape, longerShape⟩

/-- An assembled program is made of its parts. -/
theorem eq_of_assemble {maxWords : Int} {symbols : SymbolTable} {labels : Table Nat}
    {eliminated : List String} {implicitHalt : Bool} {program : Program}
    (made : assemble maxWords code symbols labels eliminated implicitHalt = .ok program) :
    program = {
      code := code
      symbols := allocate code.length (slots code) symbols
      labels := labels
      eliminated := eliminated
      implicitHalt := implicitHalt
      instructions := code.map fun emitted => (word code emitted).render
      data := initialValues (slots code) symbols } := by
  simp only [assemble] at made
  split at made
  · cases made
  · cases made
    rfl

/-- Lines without an implicit halt are assembled of the same parts as with one. -/
theorem exists_assemble_halt {options : CompileOptions} {lines : List Line} {program : Program}
    (compiled : ofLines options (some true) lines = .ok program) :
    ∃ symbols, assemble options.maxWords program.code symbols program.labels program.eliminated
        false = .ok program ∧
      ofLines options (some false) lines =
        assemble options.maxWords (program.code ++ [.halt]) symbols program.labels
          program.eliminated true := by
  simp only [ofLines, bind_eq_ok_iff] at compiled
  obtain ⟨layout, placed, ⟨body, symbols⟩, emitted, made⟩ := compiled
  have whole := eq_of_assemble made
  have code : program.code = body := by rw [whole]; rfl
  have labels : program.labels = layout.labels := by rw [whole]
  have eliminated : program.eliminated = droppedNames (marks options.optimize lines) := by
    rw [whole]
  refine ⟨symbols, ?_, ?_⟩
  · rw [code, labels, eliminated]
    exact made
  · simp only [ofLines, placed, emitted, bind, Except.bind, code, labels, eliminated]
    rfl

end Close

end Program

namespace Compilation

open Program

/-- The second of two compilations is the first one with one more halt behind its
instructions. -/
structure OneMoreHalt (first second : Compilation) : Prop where
  count : second.instructionCount = first.instructionCount + 1
  /-- The instructions are the same, except that every variable has moved by one
  cell. -/
  instruction : ∀ (index : Nat) text, first.program.instructions[index]? = some text →
    ∃ (opcode : Opcode) (operand : Nat), shifted opcode operand < Instruction.addressSpace ∧
      text = Instruction.render ⟨opcode.code, operand⟩ ∧
      second.program.instructions[index]? =
        some (Instruction.render ⟨opcode.code, shifted opcode operand⟩)
  halt : second.program.instructions[first.instructionCount]? = some "4300"
  data : second.program.data = first.program.data
  addresses : second.variableAddresses =
    first.variableAddresses.map fun (name, address) => (name, address + 1)
  labels : second.labels = first.labels
  eliminated : second.program.eliminated = first.program.eliminated
  lineCount : second.lineCount = first.lineCount

/-- The halts of a compiled source are its last instruction, and the one before
it where the source has a halt command but does not end with one. -/
structure HaltsAtEnd (source : String) (compilation : Compilation) : Prop where
  /-- A halt is one word only. -/
  word : ∀ text ∈ compilation.program.instructions, ∀ operand,
    Instruction.ofText? text = some ⟨Opcode.halt.code, operand⟩ → text = "4300"
  place : ∀ index : Nat, compilation.program.instructions[index]? = some "4300" ↔
    index + 1 = compilation.instructionCount ∨
      index + 2 = compilation.instructionCount ∧
        (∃ text ∈ Text.lines source, Source.isHaltText text = true) ∧
        Source.endsWithHalt source = false

section

variable {options : CompileOptions} {file : String}

theorem render_halt (code : List Emitted) : (word code .halt).render = "4300" := by
  have text : Instruction.render ⟨Opcode.halt.code, 0⟩ = "4300" := by decide +kernel
  exact text

theorem haltsAtEnd_of_ofSource (valid : options.check = .ok options) {source : String}
    {compilation : Compilation} (compiled : ofSource options file source = .ok compilation) :
    HaltsAtEnd source compilation := by
  obtain ⟨lines, layout, body, symbols, accepted⟩ := exists_accepted valid compiled
  have assembled := accepted.assembled
  have count : compilation.instructionCount = compilation.program.code.length :=
    assembled.length_instructions
  have decodes : Instruction.ofText? "4300" = some ⟨Opcode.halt.code, 0⟩ := by decide +kernel
  constructor
  case word =>
    intro text member operand decoded
    rw [assembled.instructions] at member
    obtain ⟨emitted, memCode, rfl⟩ := List.mem_map.mp member
    rw [accepted.eq_halt_of_ofText? memCode decoded]
    exact render_halt _
  case place =>
    intro index
    have halt : compilation.program.instructions[index]? = some "4300" ↔
        compilation.program.code[index]? = some .halt := by
      rw [assembled.instructions, List.getElem?_map, Option.map_eq_some_iff]
      constructor
      · rintro ⟨emitted, here, text⟩
        have decoded : Instruction.ofText? (word compilation.program.code emitted).render =
            some ⟨Opcode.halt.code, 0⟩ := by
          rw [word, text, decodes]
        rw [here, accepted.eq_halt_of_ofText? (List.mem_of_getElem? here) decoded]
      · intro here
        exact ⟨.halt, here, render_halt _⟩
    have positive := accepted.executable.length_pos
    have flag : (Text.lines source).any Source.isHaltText = true ↔
        ∃ text ∈ Text.lines source, Source.isHaltText text = true := List.any_eq_true
    rw [halt, accepted.getElem?_code_eq_halt_iff, count, ← flag, haltCount]
    cases (Text.lines source).any Source.isHaltText <;> cases Source.endsWithHalt source <;>
      simp <;> omega

section Halted

variable {first second : String} {compilation : Compilation}

/-- A source that goes on behind the halt command is compiled if and only if
there is room for one more word. -/
theorem exists_ofSource_iff_of_agreeToHalt (agree : Source.AgreeToHalt first second)
    (ends : Source.endsWithHalt first = true) (goesOn : Source.endsWithHalt second = false)
    (compiled : ofSource options file first = .ok compilation) :
    (∃ other, ofSource options file second = .ok other) ↔
      (compilation.words.length + 1 : Nat) ≤ options.maxWords := by
  obtain ⟨lines, program, read, made, rfl⟩ := ofSource_eq_ok_iff.mp compiled
  rw [ends] at made
  obtain ⟨_, _, _, assembled⟩ := assembled_of_ofLines made
  obtain ⟨symbols, _, halted⟩ := exists_assemble_halt made
  have room : (∃ other, ofLines options (some false) lines = .ok other) ↔
      (program.words.length + 1 : Nat) ≤ options.maxWords := by
    rw [halted, exists_assemble_iff, slots_append_halt, assembled.length_words, extent,
      List.length_append, List.length_singleton, Nat.add_right_comm]
  rw [Compilation.words, ← room]
  constructor
  · rintro ⟨other, otherCompiled⟩
    obtain ⟨otherLines, longer, otherRead, otherMade, _⟩ := ofSource_eq_ok_iff.mp otherCompiled
    rw [← Source.lines_eq_of_agreeToHalt agree, read] at otherRead
    cases otherRead
    rw [goesOn] at otherMade
    exact ⟨longer, otherMade⟩
  · rintro ⟨longer, otherMade⟩
    rw [← goesOn] at otherMade
    exact ⟨_, ofSource_eq_ok_iff.mpr
      ⟨lines, longer, Source.lines_eq_of_agreeToHalt agree file ▸ read, otherMade, rfl⟩⟩

theorem oneMoreHalt_of_agreeToHalt (valid : options.check = .ok options)
    (agree : Source.AgreeToHalt first second) (ends : Source.endsWithHalt first = true)
    (goesOn : Source.endsWithHalt second = false)
    (compiled : ofSource options file first = .ok compilation) {other : Compilation}
    (otherCompiled : ofSource options file second = .ok other) :
    OneMoreHalt compilation other := by
  obtain ⟨_, _, _, _, accepted⟩ := exists_accepted valid compiled
  obtain ⟨_, _, _, _, otherAccepted⟩ := exists_accepted valid otherCompiled
  have addresses := accepted.addresses_eq
  have otherAddresses := otherAccepted.addresses_eq
  have executable := accepted.executable
  have otherExecutable := otherAccepted.executable
  obtain ⟨lines, program, read, made, rfl⟩ := ofSource_eq_ok_iff.mp compiled
  obtain ⟨otherLines, longer, otherRead, otherMade, rfl⟩ := ofSource_eq_ok_iff.mp otherCompiled
  rw [← Source.lines_eq_of_agreeToHalt agree, read] at otherRead
  cases otherRead
  rw [ends] at made
  rw [goesOn] at otherMade
  obtain ⟨symbols, plain, halted⟩ := exists_assemble_halt made
  rw [halted] at otherMade
  have shape := eq_of_assemble plain
  have longerShape := eq_of_assemble otherMade
  have code : longer.code = program.code ++ [.halt] := by rw [longerShape]
  have instructions : program.instructions =
      program.code.map fun emitted => (word program.code emitted).render := by
    conv_lhs => rw [shape]
  have longerInstructions : longer.instructions =
      longer.code.map fun emitted => (word longer.code emitted).render := by
    rw [longerShape]
  have count : program.instructions.length = program.code.length := by
    rw [instructions, List.length_map]
  simp only at executable otherExecutable addresses otherAddresses
  constructor
  case count => simp [instructionCount, instructions, longerInstructions, code]
  case instruction =>
    intro index text here
    rw [instructions, List.getElem?_map] at here
    obtain ⟨emitted, there, rfl⟩ := Option.map_eq_some_iff.mp here
    obtain ⟨operand, small, shape, longerWord⟩ :=
      executable.exists_shifted (code ▸ otherExecutable) (List.mem_of_getElem? there)
    refine ⟨emitted.opcode, operand, small, by rw [shape], ?_⟩
    rw [longerInstructions, List.getElem?_map, code,
      List.getElem?_append_left (List.getElem?_eq_some_iff.mp there).1, there, Option.map_some,
      longerWord]
  case halt =>
    rw [instructionCount, count, longerInstructions, List.getElem?_map, code,
      List.getElem?_concat_length, Option.map_some, render_halt]
  case data =>
    rw [longerShape, shape]
    simp only [slots_append_halt]
  case addresses =>
    rw [variableAddresses, variableAddresses, addresses, otherAddresses, code, slots_append_halt]
    apply List.ext_getElem
    · simp
    · intro index _ _
      simp only [List.getElem_mapIdx, List.getElem_map, List.length_append, List.length_singleton,
        Prod.mk.injEq, true_and]
      omega
  case labels => simp only [labels, longerShape]
  case eliminated => simp only [longerShape]
  case lineCount => rfl

/-- Nothing but one more halt depends on what follows the first halt command.
Sources that agree up to it are compiled alike if both or neither of them end
with a halt.  If only the first one does, the second one has one more halt and
is compiled where there is room for it.  A compiled source has halts at its end
only. -/
theorem tail_irrelevant (valid : options.check = .ok options)
    (agree : Source.AgreeToHalt first second) (file : String) :
    (Source.endsWithHalt first = Source.endsWithHalt second →
      ofSource options file first = ofSource options file second) ∧
    (Source.endsWithHalt first = true → Source.endsWithHalt second = false →
      ∀ compilation, ofSource options file first = .ok compilation →
        ((∃ other, ofSource options file second = .ok other) ↔
          (compilation.words.length + 1 : Nat) ≤ options.maxWords) ∧
        ∀ other, ofSource options file second = .ok other → OneMoreHalt compilation other) ∧
    ∀ source compilation, ofSource options file source = .ok compilation →
      HaltsAtEnd source compilation := by
  constructor
  · exact fun same => ofSource_eq_of_agreeToHalt agree same options file
  constructor
  · intro ends goesOn compilation compiled
    exact ⟨exists_ofSource_iff_of_agreeToHalt agree ends goesOn compiled,
      fun other => oneMoreHalt_of_agreeToHalt valid agree ends goesOn compiled⟩
  · exact fun source compilation => haltsAtEnd_of_ofSource valid

/-- A source with a tail that cannot be read. -/
theorem tail_irrelevant_unreadable :
    CompileOptions.check {} = .ok {} ∧
      Source.AgreeToHalt "a=7
WRITE a
HALT" "a=7
WRITE a
HALT
a=7 8 9" ∧
      ∃ compilation other,
        ofSource {} "tail" "a=7
WRITE a
HALT" = .ok compilation ∧
        compilation.words = ["1102", "4300", "7"] ∧
        ofSource {} "tail" "a=7
WRITE a
HALT
a=7 8 9" = .ok other ∧
        other.words = ["1103", "4300", "4300", "7"] ∧
        OneMoreHalt compilation other ∧
        HaltsAtEnd "a=7
WRITE a
HALT
a=7 8 9" other := by
  have agree : Source.AgreeToHalt "a=7
WRITE a
HALT" "a=7
WRITE a
HALT
a=7 8 9" :=
    ⟨["a=7", "WRITE a"], "HALT", [], ["a=7 8 9"], by decide +kernel, by decide +kernel,
      by decide +kernel⟩
  have words : ((ofSource {} "tail" "a=7
WRITE a
HALT").map Compilation.words).toOption =
      some ["1102", "4300", "7"] := by decide +kernel
  have longerWords : ((ofSource {} "tail" "a=7
WRITE a
HALT
a=7 8 9").map
      Compilation.words).toOption = some ["1103", "4300", "4300", "7"] := by decide +kernel
  obtain ⟨compilation, compiled, words⟩ := of_toOption_map_eq_some words
  obtain ⟨other, otherCompiled, longerWords⟩ := of_toOption_map_eq_some longerWords
  have valid : CompileOptions.check {} = .ok {} := rfl
  obtain ⟨_, longer, halts⟩ := tail_irrelevant valid agree "tail"
  exact ⟨valid, agree, compilation, other, compiled, words, otherCompiled, longerWords,
    (longer (by decide +kernel) (by decide +kernel) compilation compiled).2 other otherCompiled,
    halts _ other otherCompiled⟩

end Halted

end

end Compilation

end DecimalMachine
