import DecimalMachine.Program.Compilation
import DecimalMachine.Proofs.Program.Emission
import DecimalMachine.Proofs.Program.Liveness
import DecimalMachine.Proofs.Semantics.Lines
import DecimalMachine.Proofs.Word.Rendering
import Mathlib.Data.List.Basic

/-!
# Accepted programs

The code of an accepted program can be executed: it ends with a halt, every
operand fits its operation, branches go to instructions of the program, and all
addresses have two digits.  The data behind it are the initial values of the
variables, in the order of their cells.
-/

namespace DecimalMachine

/-- A source is compiled by compiling its lines. -/
theorem Compilation.ofSource_eq_ok_iff {options : CompileOptions} {file source : String}
    {compilation : Compilation} :
    ofSource options file source = .ok compilation ↔
      ∃ lines program, Source.lines file source = .ok lines ∧
        Program.ofLines options (some (Source.endsWithHalt source)) lines = .ok program ∧
        compilation = ⟨file, program, lines.length⟩ := by
  simp only [ofSource, bind_eq_ok_iff]
  constructor
  · rintro ⟨lines, read, made⟩
    split at made
    · next program compiled =>
        cases made
        exact ⟨lines, program, read, compiled, rfl⟩
    · cases made
  · rintro ⟨lines, program, read, compiled, rfl⟩
    refine ⟨lines, read, ?_⟩
    rw [compiled]
    rfl

namespace Program

open Semantics

/-- A program assembled from the layout and the code of its lines. -/
structure Assembled (maxWords : Int) (implicitHalt : Bool) (lines : List Marked) (layout : Layout)
    (body : List Emitted) (symbols : SymbolTable) (program : Program) : Prop where
  placed : Layout.empty.placeAll lines = .ok layout
  emitted : emit layout.labels .empty lines = .ok (body, symbols)
  code : program.code = close implicitHalt body
  instructions : program.instructions =
    program.code.map fun emitted =>
      (relocate program.code.length (slots program.code) emitted).render
  data : program.data = initialValues (slots program.code) symbols
  eliminated : program.eliminated = droppedNames lines
  symbols : program.symbols = allocate program.code.length (slots program.code) symbols
  size : (program.code.length + (slots program.code).length : Nat) ≤ maxWords

theorem assembled_of_ofLines {options : CompileOptions} {terminated : Option Bool}
    {lines : List Line} {program : Program}
    (compiled : ofLines options terminated lines = .ok program) :
    ∃ layout body symbols,
      Assembled options.maxWords (needsHalt terminated (marks options.optimize lines))
        (marks options.optimize lines) layout body symbols program := by
  simp only [ofLines, bind_eq_ok_iff] at compiled
  obtain ⟨layout, placed, ⟨body, symbols⟩, emitted, compiled⟩ := compiled
  simp only [assemble] at compiled
  split at compiled
  · cases compiled
  · next fits =>
      cases compiled
      exact ⟨layout, body, symbols, placed, emitted, rfl, rfl, rfl, rfl, rfl,
        Int.not_lt.mp fits⟩

/-- Code that a machine can execute. -/
structure Executable (code : List Emitted) : Prop where
  fits : ∀ emitted ∈ code, emitted.Fits code.length
  last : code.getLast? = some .halt
  size : code.length + (slots code).length ≤ Instruction.addressSpace

/-! ## The end of the code -/

theorem wordCount_append (above below : List Marked) :
    wordCount (above ++ below) = wordCount above + wordCount below := by
  induction above with
  | nil => rw [List.nil_append, wordCount_nil, Nat.zero_add]
  | cons marked above ih => rw [List.cons_append, wordCount_cons, wordCount_cons, ih, Nat.add_assoc]

theorem wordCount_take_le (lines : List Marked) (index : Nat) :
    wordCount (lines.take index) ≤ wordCount lines := by
  calc
    wordCount (lines.take index) ≤ wordCount (lines.take index) + wordCount (lines.drop index) :=
      Nat.le_add_right _ _
    _ = wordCount lines := by rw [← wordCount_append, List.take_append_drop]

theorem ofMnemonic?_haltCommand : Opcode.ofMnemonic? Form.haltCommand = some .halt :=
  rfl

/-- The command of a halt line is the halt. -/
theorem exists_form_of_isHalt {line : Line} (halt : line.isHalt = true) :
    ∃ operand, line.form = .instruction Form.haltCommand operand := by
  unfold Line.isHalt Form.isHalt at halt
  split at halt
  · next command operand form =>
      rw [eq_of_beq halt] at form
      exact ⟨operand, form⟩
  · cases halt

theorem Emits.eq_halt_of_isHalt {labels : Table Nat} {symbols next : SymbolTable}
    {marked : Marked} {code : List Emitted} (emits : Emits labels symbols marked code next)
    (halt : marked.line.isHalt = true) : code = [.halt] := by
  obtain ⟨operand, form⟩ := exists_form_of_isHalt halt
  cases emits with
  | silent _ uncommanded => exact absurd form (uncommanded _ _)
  | literal other | dropped other | lowered other =>
      rw [form] at other
      cases other
  | halt => rfl
  | branch other mnemonic branch =>
      rw [form] at other
      cases other
      rw [ofMnemonic?_haltCommand] at mnemonic
      cases mnemonic
      cases branch
  | access other mnemonic _ halt =>
      rw [form] at other
      cases other
      rw [ofMnemonic?_haltCommand] at mnemonic
      exact absurd (Option.some.inj mnemonic).symm halt

theorem getLast?_of_emit {labels : Table Nat} {symbols final : SymbolTable}
    {lines : List Marked} {code : List Emitted} {last : Marked}
    (emitted : emit labels symbols lines = .ok (code, final)) (ends : lines.getLast? = some last)
    (halt : last.line.isHalt = true) : code.getLast? = some .halt := by
  obtain ⟨above, rfl⟩ := List.getLast?_eq_some_iff.mp ends
  obtain ⟨head, tail, next, _, lastLine, rfl⟩ := emit_append_eq_ok emitted
  obtain ⟨first, rest, after, emits, nothing, rfl⟩ := emit_cons_eq_ok lastLine
  cases nothing
  rw [emits.eq_halt_of_isHalt halt]
  simp

theorem size_pos_of_isHalt {marked : Marked} (halt : marked.line.isHalt = true) :
    marked.size = 1 := by
  obtain ⟨operand, form⟩ := exists_form_of_isHalt halt
  simp [Marked.size, form]

/-- A program ends with a halt: one of its own or an implicit one. -/
def Ends (implicitHalt : Bool) (lines : List Marked) : Prop :=
  implicitHalt = true ∨ ∃ last, lines.getLast? = some last ∧ last.line.isHalt = true

namespace Assembled

variable {maxWords : Int} {implicitHalt : Bool} {lines : List Marked} {layout : Layout}
  {body : List Emitted} {symbols : SymbolTable} {program : Program}

theorem length_body
    (assembled : Assembled maxWords implicitHalt lines layout body symbols program) :
    body.length = wordCount lines :=
  length_of_emit assembled.emitted

theorem getLast?_code
    (assembled : Assembled maxWords implicitHalt lines layout body symbols program)
    (ends : Ends implicitHalt lines) : program.code.getLast? = some .halt := by
  rw [assembled.code, close]
  rcases ends with implicit | ⟨last, lastLine, halt⟩
  · rw [if_pos implicit, List.getLast?_concat]
  · split
    · rw [List.getLast?_concat]
    · exact getLast?_of_emit assembled.emitted lastLine halt

/-- The words above a line do not reach the end of the program. -/
theorem wordCount_take_lt
    (assembled : Assembled maxWords implicitHalt lines layout body symbols program)
    (ends : Ends implicitHalt lines) {index : Nat} (inside : index < lines.length) :
    wordCount (lines.take index) < program.code.length := by
  have above := wordCount_take_le lines index
  rw [assembled.code, close]
  rcases ends with implicit | ⟨last, lastLine, halt⟩
  · rw [if_pos implicit, List.length_append, assembled.length_body]
    exact Nat.lt_of_le_of_lt above (Nat.lt_add_one _)
  · have below : 0 < wordCount (lines.drop index) := by
      obtain ⟨front, split⟩ := List.getLast?_eq_some_iff.mp
        ((List.getLast?_drop.trans (if_neg (Nat.not_le_of_lt inside))).trans lastLine)
      rw [split, wordCount_append, wordCount_cons, size_pos_of_isHalt halt]
      omega
    have total : wordCount (lines.take index) + wordCount (lines.drop index) = body.length := by
      rw [← wordCount_append, List.take_append_drop, assembled.length_body]
    split
    · rw [List.length_append]
      omega
    · omega

theorem label (assembled : Assembled maxWords implicitHalt lines layout body symbols program)
    {name : String} {entry : Entry Nat} (found : layout.labels.find? name = some entry) :
    ∃ index, (lines.map (·.line)).findIdx? (fun line => line.form = .label name) = some index ∧
      entry.value = wordCount (lines.take index) := by
  have names : layout.labels.names = labelNames lines :=
    Layout.labelNames_of_placeAll assembled.placed
  obtain ⟨_, line⟩ := exists_line_of_mem_labelNames
    (names ▸ Table.exists_find?_iff.mp ⟨entry, found⟩)
  cases place : (lines.map (·.line)).findIdx? fun line => line.form = .label name with
  | none =>
      obtain ⟨marked, here, form⟩ := Option.map_eq_some_iff.mp line
      have different := List.findIdx?_eq_none_iff.mp place marked.line
        (List.mem_map_of_mem (List.mem_of_getElem? here))
      simp [form] at different
  | some index =>
      obtain ⟨inside, labelled, _⟩ := List.findIdx?_eq_some_iff_getElem.mp place
      rw [List.length_map] at inside
      obtain ⟨same, foundSame, value⟩ := Layout.exists_label_of_placeAll assembled.placed
        (List.getElem?_eq_getElem inside) (by simpa using labelled)
      rw [found] at foundSame
      cases foundSame
      refine ⟨index, rfl, ?_⟩
      rw [value]
      exact Nat.zero_add _

theorem label_lt (assembled : Assembled maxWords implicitHalt lines layout body symbols program)
    (ends : Ends implicitHalt lines) {name : String} {entry : Entry Nat}
    (found : layout.labels.find? name = some entry) : entry.value < program.code.length := by
  obtain ⟨index, place, value⟩ := assembled.label found
  obtain ⟨inside, _⟩ := List.findIdx?_eq_some_iff_getElem.mp place
  rw [List.length_map] at inside
  exact value ▸ assembled.wordCount_take_lt ends inside

/-- The code of a program that ends with a halt and fits the address space can
be executed. -/
theorem executable (assembled : Assembled maxWords implicitHalt lines layout body symbols program)
    (ends : Ends implicitHalt lines) (small : maxWords ≤ Instruction.addressSpace) :
    Executable program.code where
  fits := by
    intro emitted member
    have bounded : ∀ name entry, layout.labels.find? name = some entry →
        entry.value < program.code.length := fun _ _ found => assembled.label_lt ends found
    have inBody : ∀ emitted ∈ body, emitted.Fits program.code.length := fun _ member =>
      fits_of_emit bounded assembled.emitted member
    rw [assembled.code, close] at member
    split at member
    · rcases List.mem_append.mp member with member | member
      · exact inBody emitted member
      · cases List.mem_singleton.mp member
        rfl
    · exact inBody emitted member
  last := assembled.getLast?_code ends
  size := by
    have size := assembled.size
    omega

theorem nodup (assembled : Assembled maxWords implicitHalt lines layout body symbols program) :
    (declaredNames lines).Nodup :=
  (Layout.exists_placeAll_empty_iff.mp ⟨layout, assembled.placed⟩).1

end Assembled

/-! ## The data -/

theorem literal?_cons (line : Line) (below : List Line) (name : String) :
    literal? (line :: below) name = (declaredLiteral? name line).or (literal? below name) := by
  rw [literal?, List.findSome?_cons]
  cases declaredLiteral? name line <;> rfl

theorem literal?_cons_of_ne {line : Line} {name : String}
    (different : ∀ value, line.form ≠ .variable name value) (below : List Line) :
    literal? (line :: below) name = literal? below name := by
  have undeclared : declaredLiteral? name line = none := by
    unfold declaredLiteral?
    split
    · next other value form =>
        rw [if_neg]
        rintro rfl
        exact different value form
    · rfl
  rw [literal?_cons, undeclared, Option.none_or]

/-- A literal is that of a line. -/
theorem exists_variable_of_literal? {lines : List Line} {name : String} {value : Int}
    (found : literal? lines name = some value) :
    ∃ line ∈ lines, line.form = .variable name value := by
  obtain ⟨line, member, declared⟩ := List.exists_of_findSome?_eq_some found
  unfold declaredLiteral? at declared
  split at declared
  · next form =>
      split at declared
      · next same =>
          cases declared
          exact ⟨line, member, same ▸ form⟩
      · cases declared
  · cases declared

/-- The initial value of a variable is its literal, and zero where there is
none. -/
theorem value_of_emit {labels : Table Nat} {symbols final : SymbolTable} {lines : List Marked}
    {code : List Emitted} (emitted : emit labels symbols lines = .ok (code, final))
    {name : String} {entry : Entry Variable} (found : final.find? name = some entry) :
    symbols.find? name = some entry ∧ literal? (lines.map (·.line)) name = none ∨
      symbols.find? name = none ∧
        entry.value.value = Decimal.text ((literal? (lines.map (·.line)) name).getD 0) := by
  induction lines generalizing symbols code with
  | nil =>
      cases emitted
      exact .inl ⟨found, rfl⟩
  | cons marked below ih =>
      obtain ⟨head, tail, next, emits, rest, _⟩ := emit_cons_eq_ok emitted
      have later := ih rest
      rw [List.map_cons]
      cases emits with
      | silent undeclared =>
          rw [literal?_cons_of_ne]
          · exact later
          · intro value form
            simp [form, Form.declares?] at undeclared
      | dropped form | halt form | branch form | access form =>
          rw [literal?_cons_of_ne (by simp [form])]
          exact later
      | @literal other value form fresh =>
          rw [literal?_cons, declaredLiteral?, form]
          by_cases same : other = name
          · subst same
            simp only [Table.find?_add, fresh, Option.none_or, if_true] at later
            rcases later with ⟨known, _⟩ | ⟨unknown, _⟩
            · cases known
              exact .inr ⟨fresh, by simp⟩
            · cases unknown
          · simpa [Table.find?_add, same] using later
      | @lowered other first more form kept known fresh =>
          rw [literal?_cons_of_ne (by simp [form])]
          by_cases same : other = name
          · subst same
            simp only [Table.find?_add, fresh, Option.none_or, if_true] at later
            rcases later with ⟨known, undeclared⟩ | ⟨unknown, _⟩
            · cases known
              exact .inr ⟨fresh, by rw [undeclared]; rfl⟩
            · cases unknown
          · simpa [Table.find?_add, same] using later

theorem accessed_of_mem_slots {code : List Emitted} {name : String} (member : name ∈ slots code) :
    ∃ emitted ∈ code, emitted.accessed? = some name := by
  simpa [slots, List.mem_filterMap] using member

theorem mem_slots_of_accessed {code : List Emitted} {emitted : Emitted} {name : String}
    (member : emitted ∈ code) (accessed : emitted.accessed? = some name) : name ∈ slots code := by
  simpa [slots, List.mem_filterMap] using ⟨emitted, member, accessed⟩

/-- A variable that the code works on is declared. -/
theorem Assembled.declared {maxWords : Int} {implicitHalt : Bool} {lines : List Marked}
    {layout : Layout} {body : List Emitted} {symbols : SymbolTable} {program : Program}
    (assembled : Assembled maxWords implicitHalt lines layout body symbols program)
    {name : String} (member : name ∈ slots program.code) :
    ∃ entry, symbols.find? name = some entry ∧
      entry.value.value = Decimal.text ((literal? (lines.map (·.line)) name).getD 0) := by
  obtain ⟨emitted, memCode, accessed⟩ := accessed_of_mem_slots member
  have memBody : emitted ∈ body := by
    rw [assembled.code, close] at memCode
    split at memCode
    · rcases List.mem_append.mp memCode with memCode | memCode
      · exact memCode
      · cases List.mem_singleton.mp memCode
        cases accessed
    · exact memCode
  obtain ⟨entry, found⟩ := known_of_emit assembled.emitted memBody accessed
  rcases value_of_emit assembled.emitted found with ⟨known, _⟩ | ⟨_, value⟩
  · cases known
  · exact ⟨entry, found, value⟩

theorem Assembled.data_eq {maxWords : Int} {implicitHalt : Bool} {lines : List Marked}
    {layout : Layout} {body : List Emitted} {symbols : SymbolTable} {program : Program}
    (assembled : Assembled maxWords implicitHalt lines layout body symbols program) :
    program.data = (slots program.code).map fun name =>
      Decimal.text ((literal? (lines.map (·.line)) name).getD 0) := by
  rw [assembled.data, initialValues, ← List.filterMap_eq_map]
  apply List.filterMap_congr
  intro name member
  obtain ⟨entry, found, value⟩ := assembled.declared member
  simp [found, value]

/-! ## Accepted sources -/

/-- The lines of a source end with a halt if the source does, and otherwise the
program gets one. -/
theorem ends_marks {file source : String} {lines : List Line}
    (read : Source.lines file source = .ok lines) (optimize : Bool) :
    Ends (needsHalt (some (Source.endsWithHalt source)) (marks optimize lines))
      (marks optimize lines) := by
  cases ends : Source.endsWithHalt source with
  | false => exact .inl rfl
  | true =>
      obtain ⟨line, last, halt⟩ := Source.exists_isHalt_of_endsWithHalt read ends
      rw [← map_line_marks read optimize, List.getLast?_map, Option.map_eq_some_iff] at last
      obtain ⟨marked, last, rfl⟩ := last
      exact .inr ⟨marked, last, halt⟩

/-- A source with the program that it was accepted as. -/
structure Accepted (options : CompileOptions) (file source : String) (lines : List Line)
    (layout : Layout) (body : List Emitted) (symbols : SymbolTable) (program : Program) :
    Prop where
  read : Source.lines file source = .ok lines
  assembled : Assembled options.maxWords
    (needsHalt (some (Source.endsWithHalt source)) (marks options.optimize lines))
    (marks options.optimize lines) layout body symbols program
  small : options.maxWords ≤ Instruction.addressSpace

theorem exists_accepted {options : CompileOptions} {file source : String}
    {compilation : Compilation} (valid : options.check = .ok options)
    (compiled : Compilation.ofSource options file source = .ok compilation) :
    ∃ lines layout body symbols,
      Accepted options file source lines layout body symbols compilation.program := by
  rcases Compilation.ofSource_eq_ok_iff.mp compiled with ⟨lines, program, read, made, rfl⟩
  rcases assembled_of_ofLines made with ⟨layout, body, symbols, assembled⟩
  have small : options.maxWords ≤ Instruction.addressSpace := by
    unfold CompileOptions.check at valid
    split at valid
    · next bounds => exact bounds.2
    · cases valid
  exact ⟨lines, layout, body, symbols, read, assembled, small⟩

namespace Accepted

variable {options : CompileOptions} {file source : String} {lines : List Line} {layout : Layout}
  {body : List Emitted} {symbols : SymbolTable} {program : Program}

theorem executable
    (accepted : Accepted options file source lines layout body symbols program) :
    Executable program.code :=
  accepted.assembled.executable (ends_marks accepted.read options.optimize) accepted.small

/-- The literals of an accepted source can be written. -/
theorem writable_literal
    (accepted : Accepted options file source lines layout body symbols program) (name : String) :
    Decimal.Writable ((literal? lines name).getD 0) := by
  cases found : literal? lines name with
  | none => exact Decimal.writable_zero
  | some value =>
      obtain ⟨line, member, form⟩ := exists_variable_of_literal? found
      exact Source.writable_of_mem_lines accepted.read member form

end Accepted

end Program

end DecimalMachine
