import DecimalMachine.Proofs.Memory.Cells
import DecimalMachine.Proofs.Occurrences
import DecimalMachine.Proofs.Program.Acceptance

/-!
# The image of a program in memory

A loaded program takes the first cells: its instruction words, the texts of its
variables, and empty words up to the size of the memory.  Each variable has a
cell of its own, so that storing one changes no other.
-/

namespace DecimalMachine.Program

open Semantics

/-- In a list without repetitions, changing a function at an element changes one
element of its image. -/
theorem set_idxOf_map {α : Type} (render : Int → α) (contents : String → Int) (value : Int)
    {names : List String} (nodup : names.Nodup) {name : String} (member : name ∈ names) :
    (names.map fun other => render (contents other)).set (names.idxOf name) (render value) =
      names.map fun other => render (Function.update contents name value other) := by
  induction names with
  | nil => cases member
  | cons first rest ih =>
      obtain ⟨fresh, nodup⟩ := List.nodup_cons.mp nodup
      by_cases same : first = name
      · subst same
        rw [List.idxOf_cons_self, List.map_cons, List.set_cons_zero, List.map_cons,
          Function.update_self]
        congr 1
        apply List.map_congr_left
        intro other otherMem
        rw [Function.update_of_ne]
        rintro rfl
        exact fresh otherMem
      · have later : name ∈ rest := (List.mem_cons.mp member).resolve_left (Ne.symm same)
        rw [List.idxOf_cons_ne rest same, List.map_cons, List.set_cons_succ, ih nodup later,
          List.map_cons, Function.update_of_ne same]

/-- The number of cells of a program. -/
def extent (code : List Emitted) : Nat :=
  code.length + (slots code).length

/-- The instruction of an emitted one, in the program that it belongs to. -/
def word (code : List Emitted) (emitted : Emitted) : Instruction :=
  relocate code.length (slots code) emitted

/-- The cell of a variable. -/
def cellOf (code : List Emitted) (name : String) : Nat :=
  code.length + (slots code).idxOf name

/-- The cells of a memory that holds a program with given values of its
variables. -/
def image (code : List Emitted) (contents : String → Int) (size : Nat) : List String :=
  code.map (fun emitted => (word code emitted).render) ++
    ((slots code).map fun name => Decimal.text (contents name)) ++
    List.replicate (size - extent code) Memory.emptyWord

variable {code : List Emitted} {contents : String → Int} {size : Nat}

theorem nodup_slots (code : List Emitted) : (slots code).Nodup :=
  nodup_eraseDups _

theorem length_image (fits : extent code ≤ size) :
    (image code contents size).length = size := by
  simp only [image, List.length_append, List.length_map, List.length_replicate, extent] at *
  omega

theorem cellOf_lt_extent {name : String} (member : name ∈ slots code) :
    cellOf code name < extent code :=
  Nat.add_lt_add_left (List.idxOf_lt_length_of_mem member) _

theorem image_code {address : Nat} {emitted : Emitted} (here : code[address]? = some emitted) :
    (image code contents size)[address]? = some (word code emitted).render := by
  have inside := (List.getElem?_eq_some_iff.mp here).1
  rw [image, List.append_assoc, List.getElem?_append_left (by simpa using inside),
    List.getElem?_map, here]
  rfl

theorem image_variable {name : String} (member : name ∈ slots code) :
    (image code contents size)[cellOf code name]? = some (Decimal.text (contents name)) := by
  have inside := List.idxOf_lt_length_of_mem member
  rw [image, List.append_assoc, List.getElem?_append_right (by simp [cellOf]), cellOf,
    List.length_map, Nat.add_sub_cancel_left,
    List.getElem?_append_left (by simpa using inside), List.getElem?_map,
    List.getElem?_eq_getElem inside, List.getElem_idxOf]
  rfl

/-- Every cell between the instructions and the end of a program is that of a
variable. -/
theorem exists_cellOf {address : Nat} (behind : code.length ≤ address)
    (inside : address < extent code) : ∃ name ∈ slots code, address = cellOf code name := by
  have index : address - code.length < (slots code).length := by
    rw [extent] at inside
    omega
  refine ⟨(slots code)[address - code.length], List.getElem_mem index, ?_⟩
  rw [cellOf, (nodup_slots code).idxOf_getElem _ index]
  omega

theorem image_empty {address : Nat} (behind : extent code ≤ address) (inside : address < size) :
    (image code contents size)[address]? = some Memory.emptyWord := by
  have front : (code.map (fun emitted => (word code emitted).render) ++
      (slots code).map fun name => Decimal.text (contents name)).length = extent code := by
    simp [extent]
  rw [image, List.getElem?_append_right (by rw [front]; exact behind), front,
    List.getElem?_replicate, if_pos]
  omega

/-- Storing a variable replaces its cell and no other. -/
theorem image_set {name : String} (member : name ∈ slots code) (value : Int) :
    (image code contents size).set (cellOf code name) (Decimal.text value) =
      image code (Function.update contents name value) size := by
  have inside := List.idxOf_lt_length_of_mem member
  rw [image, List.append_assoc, List.set_append_right _ _ (by simp [cellOf]), cellOf,
    List.length_map, Nat.add_sub_cancel_left, List.set_append_left _ _ (by simpa using inside),
    set_idxOf_map Decimal.text contents value (nodup_slots code) member, image,
    List.append_assoc]

/-! ## Addresses -/

namespace Executable

theorem cellOf_lt (executable : Executable code) {name : String} (member : name ∈ slots code) :
    cellOf code name < 100 :=
  Nat.lt_of_lt_of_le (cellOf_lt_extent member) executable.size

theorem length_pos (executable : Executable code) : 0 < code.length := by
  have last := executable.last
  cases code with
  | nil => cases last
  | cons => simp

/-- The operand of every instruction has two digits. -/
theorem operand_lt (executable : Executable code) {emitted : Emitted} (member : emitted ∈ code) :
    ∃ operand : Nat, operand < 100 ∧ word code emitted = ⟨emitted.opcode.code, operand⟩ := by
  have fits := executable.fits emitted member
  obtain ⟨opcode, operand⟩ := emitted
  cases operand with
  | absent => exact ⟨0, by decide, rfl⟩
  | target index =>
      refine ⟨index, ?_, rfl⟩
      have size := executable.size
      have bound : index < code.length := fits.2
      simp only [Instruction.addressSpace] at size
      omega
  | «variable» name =>
      exact ⟨cellOf code name, executable.cellOf_lt (mem_slots_of_accessed member rfl), rfl⟩

/-- An instruction that is not a halt has another one after it. -/
theorem succ_lt (executable : Executable code) {position : Nat} {emitted : Emitted}
    (here : code[position]? = some emitted) (going : emitted.operand ≠ .absent) :
    position + 1 < code.length := by
  obtain ⟨inside, _⟩ := List.getElem?_eq_some_iff.mp here
  apply Nat.lt_of_le_of_ne inside
  intro last
  have halt := executable.last
  rw [List.getLast?_eq_getElem?, ← last, show position.succ - 1 = position from rfl, here] at halt
  cases halt
  exact going rfl

end Executable

/-! ## Loading -/

section Loading

variable {maxWords : Int} {implicitHalt : Bool} {lines : List Marked} {layout : Layout}
  {body : List Emitted} {symbols : SymbolTable} {program : Program}

theorem Assembled.length_instructions
    (assembled : Assembled maxWords implicitHalt lines layout body symbols program) :
    program.instructions.length = program.code.length := by
  rw [assembled.instructions, List.length_map]

theorem Assembled.words_eq
    (assembled : Assembled maxWords implicitHalt lines layout body symbols program) :
    program.words =
      program.code.map (fun emitted => (word program.code emitted).render) ++
        (slots program.code).map fun name =>
          Decimal.text ((literal? (lines.map (·.line)) name).getD 0) := by
  rw [words, assembled.instructions, assembled.data_eq]
  rfl

theorem Assembled.length_words
    (assembled : Assembled maxWords implicitHalt lines layout body symbols program) :
    program.words.length = extent program.code := by
  rw [assembled.words_eq]
  simp [extent]

/-- The words of an executable program are made of digits, but for the signs. -/
theorem Assembled.digits_of_mem_words
    (assembled : Assembled maxWords implicitHalt lines layout body symbols program)
    (executable : Executable program.code) {text : String} (member : text ∈ program.words) :
    text ≠ "" ∧ ∀ c ∈ text.toList, c.isDigit = true ∨ c = '-' := by
  rw [assembled.words_eq] at member
  rcases List.mem_append.mp member with member | member
  · rcases List.mem_map.mp member with ⟨emitted, memCode, rfl⟩
    rcases executable.operand_lt memCode with ⟨operand, small, shape⟩
    rw [shape]
    constructor
    · exact Instruction.render_ne_empty emitted.opcode.code_lt small
    · exact fun c inside =>
        .inl (Instruction.isDigit_of_mem_render emitted.opcode.code_lt small inside)
  · rcases List.mem_map.mp member with ⟨name, _, rfl⟩
    constructor
    · exact Decimal.text_ne_empty _
    · intro c inside
      rw [Decimal.toList_text] at inside
      exact Decimal.isDigit_or_eq_of_mem_chars inside

/-- The words of an executable program are loaded as its image. -/
theorem Assembled.load_words
    (assembled : Assembled maxWords implicitHalt lines layout body symbols program)
    (executable : Executable program.code) {memory : Memory}
    (fits : program.words.length ≤ memory.size) :
    ∃ loaded, memory.load program.words = .ok loaded ∧ loaded.cells.toList =
      image program.code (fun name => (literal? (lines.map (·.line)) name).getD 0)
        memory.size := by
  have digits := fun word (member : word ∈ program.words) =>
    assembled.digits_of_mem_words executable member
  have trimmed : ∀ word ∈ program.words, Text.trim word = word := by
    intro word member
    apply Text.trim_eq_self
    intro c inside
    rcases (digits word member).2 c inside with digit | rfl
    · exact Text.isBlank_of_isDigit digit
    · rfl
  refine ⟨_, Memory.load_eq_ok trimmed (fun word member => (digits word member).1) fits, ?_⟩
  rw [image, ← assembled.words_eq, ← assembled.length_words]
  simp

end Loading

end DecimalMachine.Program
