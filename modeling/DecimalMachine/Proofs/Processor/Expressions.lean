import DecimalMachine.Program.Relocation
import DecimalMachine.Proofs.Processor.Limits
import DecimalMachine.Proofs.Processor.Running
import DecimalMachine.Proofs.Program.Emission
import DecimalMachine.Proofs.Word.Rendering

/-!
# Expressions that are executed

The code of an expression is executed wherever it stands in memory and wherever
its variables have their cells.  It leaves the value of the expression in the
target and in the accumulator, and everything else in memory and all outputs as
they were.  Between two operators the running value is in the target, so the
target must not be one of the terms.

Arithmetic has its limits: neither a term nor a running value may have more
digits than a conversion takes.  A single term is copied as it is.
-/

namespace DecimalMachine

/-- Only cells are read. -/
theorem Memory.lt_of_read {memory : Memory} {address : Nat} {text : String}
    (cell : memory.read address = .ok text) : address < memory.size := by
  rw [read] at cell
  split at cell
  · next inside => exact isValid_iff.mp inside
  · cases cell

/-- A write leaves the other cells alone. -/
theorem Memory.read_setIfInBounds_of_ne {memory : Memory} {address : Nat} {other : Int}
    (different : other ≠ address) (value : String) :
    (Memory.mk (memory.cells.setIfInBounds address value)).read other = memory.read other := by
  have same : (Memory.mk (memory.cells.setIfInBounds address value)).size = memory.size :=
    Array.size_setIfInBounds
  have valid : (Memory.mk (memory.cells.setIfInBounds address value)).isValid other =
      memory.isValid other := by
    rw [isValid, isValid, same]
  rw [read, read, valid, same]
  by_cases inside : memory.isValid other = true
  · have elsewhere : address ≠ other.toNat := by
      simp only [isValid, Bool.and_eq_true, decide_eq_true_eq] at inside
      omega
    rw [if_pos inside, if_pos inside, Array.getD_eq_getD_getElem?, Array.getD_eq_getD_getElem?,
      Array.getElem?_setIfInBounds_ne elsewhere]
  · rw [if_neg inside, if_neg inside]

namespace Decimal

/-- A canonical text within the limit denotes its integer. -/
theorem valueOf_text {n : Int} (writable : Writable n) :
    digitCount (text n) ≤ digitLimit ∧ valueOf (text n) = n := by
  have read := read_text writable
  rw [read_eq] at read
  split at read
  · next fits => exact ⟨fits, Except.ok.inj read⟩
  · cases read

/-- A zero in so many digits. -/
def zeroText (count : Nat) : String := .ofList (List.replicate count '0')

variable {count : Nat}

theorem dropFinalNewline_zeroText :
    Text.dropFinalNewline (zeroText count).toList = List.replicate count '0' := by
  rw [zeroText, String.toList_ofList, Text.dropFinalNewline_eq_self]
  intro c member
  rw [List.eq_of_mem_replicate member]
  decide

variable (positive : 0 < count)

include positive

theorem isLiteral_zeroText : isLiteral (zeroText count) = true := by
  rw [isLiteral, dropFinalNewline_zeroText, isLiteralShape,
    splitSign_of_isDigits (isDigits_replicate rfl positive)]
  exact isDigits_replicate rfl positive

theorem digitCount_zeroText : digitCount (zeroText count) = count := by
  rw [digitCount, dropFinalNewline_zeroText, numeralLength,
    splitSign_of_isDigits (isDigits_replicate rfl positive)]
  exact List.length_replicate

theorem valueOf_zeroText : valueOf (zeroText count) = 0 := by
  have nothing : ∀ count, ofDigits (List.replicate count '0') = 0 := by
    intro count
    induction count with
    | zero => rfl
    | succ count ih =>
        rw [ofDigits, List.replicate_succ, Nat.ofDigitChars_cons]
        exact ih
  rw [valueOf, dropFinalNewline_zeroText, numeralValue,
    splitSign_of_isDigits (isDigits_replicate rfl positive), nothing]
  rfl

end Decimal

namespace Program

/-- The instruction of an emitted one, by the addresses of its variables. -/
def Emitted.located (addresses : String → Nat) (emitted : Emitted) : Instruction where
  opcode := emitted.opcode.code
  operand := match emitted.operand with
    | .absent => 0
    | .target index => index
    | .variable name => addresses name

/-- Relocation is one way to give variables addresses. -/
theorem relocate_eq_located (size : Nat) (slots : List String) :
    relocate size slots = Emitted.located fun name => size + slots.idxOf name :=
  rfl

end Program

namespace Processor

open Program Semantics

variable {σ : Type} {environment : Environment σ} {processor next last : Processor}

/-! ## Single instructions -/

/-- So many instructions lead from one processor to another, in whatever state the
environment is. -/
def Leads (environment : Environment σ) (count : Nat) (processor next : Processor) : Prop :=
  ∀ state, ∃ rest, after (plainCycle environment) count (processor, state) = .ok (next, rest)

theorem Leads.trans {count more : Nat} (one : Leads environment count processor next)
    (other : Leads environment more next last) :
    Leads environment (count + more) processor last := by
  intro state
  rcases one state with ⟨middle, first⟩
  rcases other middle with ⟨rest, second⟩
  exact ⟨rest, (after_add first more).trans second⟩

/-- What an instruction that goes on to the next one leaves. -/
structure Passes (processor next : Processor) (accumulator : String) (memory : Memory) : Prop where
  pc : next.registers.pc = processor.registers.pc + 1
  accumulator : next.registers.accumulator = accumulator
  memory : next.memory = memory
  outputs : next.outputs = processor.outputs

section Instructions

variable {opcode : Opcode} {operand : Nat} {text : String}

/-- An instruction that stands at the program counter is fetched and decoded. -/
theorem decodes_of_read (small : operand < Instruction.addressSpace)
    (word : processor.memory.read processor.registers.pc =
      .ok (Instruction.mk opcode.code operand).render) :
    processor.inMemory = true ∧
      Instruction.ofText? processor.fetch = some ⟨opcode.code, operand⟩ := by
  unfold Memory.read at word
  split at word
  · next inside =>
      have fetch : processor.fetch = (Instruction.mk opcode.code operand).render :=
        Except.ok.inj word
      rw [fetch]
      exact ⟨inside, Instruction.ofText?_render opcode.code_lt small⟩
  · cases word

/-- An instruction leads on if its operation advances whatever the environment does. -/
theorem leads_of_execute (small : operand < Instruction.addressSpace)
    (word : processor.memory.read processor.registers.pc =
      .ok (Instruction.mk opcode.code operand).render)
    (executes : ∀ state, ∃ refused rest,
      (processor.atInstruction opcode operand).execute environment opcode operand state =
        (.advanced refused, next, rest)) :
    Leads environment 1 processor next := by
  rcases decodes_of_read small word with ⟨inside, decodes⟩
  intro state
  rcases executes (environment.trace (processor.atInstruction opcode operand).registers state) with
    ⟨refused, rest, executed⟩
  refine ⟨rest, ?_⟩
  simp only [after_one, plainCycle, inside, cycle_of_ofText? decodes, executed, if_true]

variable (environment) (small : operand < Instruction.addressSpace)

include small

theorem exists_load
    (word : processor.memory.read processor.registers.pc =
      .ok (Instruction.mk Opcode.load.code operand).render)
    (cell : processor.memory.read operand = .ok text) :
    ∃ next, Leads environment 1 processor next ∧ Passes processor next text processor.memory := by
  refine ⟨((processor.atInstruction .load operand).accumulate text).advance,
    leads_of_execute small word fun state => ⟨none, state, ?_⟩, ⟨rfl, rfl, rfl, rfl⟩⟩
  have here : (processor.atInstruction .load operand).cell operand = .ok text :=
    cell_eq_ok_iff.mpr cell
  rw [execute, here]
  rfl

theorem exists_store
    (word : processor.memory.read processor.registers.pc =
      .ok (Instruction.mk Opcode.store.code operand).render)
    (room : operand < processor.memory.size) :
    ∃ next, Leads environment 1 processor next ∧
      Passes processor next processor.registers.accumulator
        ⟨processor.memory.cells.setIfInBounds operand processor.registers.accumulator⟩ := by
  have written : (processor.atInstruction .store operand).memory.write operand
      processor.registers.accumulator = .ok ⟨_⟩ :=
    Memory.write_of_lt room _
  refine ⟨Processor.advance { processor.atInstruction .store operand with memory := ⟨_⟩ },
    leads_of_execute small word fun state => ?_, ⟨rfl, rfl, rfl, rfl⟩⟩
  rw [execute, writeCell]
  simp only [show (processor.atInstruction .store operand).registers.accumulator =
    processor.registers.accumulator from rfl, written]
  exact ⟨_, _, rfl⟩

theorem exists_operator {sign : Sign}
    (word : processor.memory.read processor.registers.pc =
      .ok (Instruction.mk (signOpcode sign).code operand).render)
    (cell : processor.memory.read operand = .ok text)
    (left : Decimal.isLiteral processor.registers.accumulator = true)
    (right : Decimal.isLiteral text = true)
    (leftFits : Decimal.digitCount processor.registers.accumulator ≤ Decimal.digitLimit)
    (rightFits : Decimal.digitCount text ≤ Decimal.digitLimit)
    (writable : Decimal.Writable
      (sign.apply (Decimal.valueOf processor.registers.accumulator) (Decimal.valueOf text))) :
    ∃ next, Leads environment 1 processor next ∧
      Passes processor next (Decimal.text
        (sign.apply (Decimal.valueOf processor.registers.accumulator) (Decimal.valueOf text)))
        processor.memory := by
  have there : (processor.atInstruction (signOpcode sign) operand).memory.read operand =
      .ok text := cell
  have combined := combine_of_fits there left right leftFits rightFits writable
  refine ⟨((processor.atInstruction (signOpcode sign) operand).accumulate _).advance,
    leads_of_execute small word fun state => ⟨none, state, ?_⟩, ⟨rfl, rfl, rfl, rfl⟩⟩
  have executed : (processor.atInstruction (signOpcode sign) operand).execute environment
      (signOpcode sign) operand state =
        (processor.atInstruction (signOpcode sign) operand).settle
          ((processor.atInstruction (signOpcode sign) operand).combine operand sign.apply)
          state := by
    cases sign <;> rfl
  rw [executed, combined]
  rfl

end Instructions

/-! ## Blocks of instructions -/

/-- Instructions stand in memory, one word each. -/
def Holds (memory : Memory) (start : Nat) (code : List Instruction) : Prop :=
  ∀ index (inside : index < code.length),
    memory.read (start + index : Nat) = .ok code[index].render

instance (memory : Memory) (start : Nat) (code : List Instruction) :
    Decidable (Holds memory start code) :=
  Nat.decidableBallLT code.length _

/-- What a block leaves that computes a text for a cell. -/
structure Computes (target count : Nat) (text : String) (processor next : Processor) : Prop where
  pc : next.registers.pc = processor.registers.pc + count
  accumulator : next.registers.accumulator = text
  cell : next.memory.read target = .ok text
  others : ∀ address : Int, address ≠ target →
    next.memory.read address = processor.memory.read address
  outputs : next.outputs = processor.outputs

theorem Computes.trans {target count more : Nat} {first text : String}
    (one : Computes target count first processor next)
    (other : Computes target more text next last) :
    Computes target (count + more) text processor last where
  pc := by rw [other.pc, one.pc, Nat.add_assoc]
  accumulator := other.accumulator
  cell := other.cell
  others := fun address elsewhere =>
    (other.others address elsewhere).trans (one.others address elsewhere)
  outputs := other.outputs.trans one.outputs

section Blocks

variable {memory : Memory} {start target : Nat} {instruction : Instruction}
  {code : List Instruction} {text : String}

theorem Holds.head (holds : Holds memory start (instruction :: code)) :
    memory.read start = .ok instruction.render :=
  holds 0 (Nat.zero_lt_succ _)

theorem Holds.tail (holds : Holds memory start (instruction :: code)) :
    Holds memory (start + 1) code := by
  intro index inside
  rw [Nat.add_right_comm]
  exact holds (index + 1) (Nat.succ_lt_succ inside)

/-- A block that the target is outside of stays in memory. -/
theorem Holds.of_computes {count : Nat} (computes : Computes target count text processor next)
    (apart : ∀ index, index < code.length → start + index ≠ target)
    (holds : Holds processor.memory start code) : Holds next.memory start code := by
  intro index inside
  have elsewhere := apart index inside
  rw [computes.others _ (by exact_mod_cast elsewhere)]
  exact holds index inside

/-- An instruction that stores the accumulator computes it for its cell. -/
theorem Passes.computes {address : Nat} (room : address < processor.memory.size)
    (passes : Passes processor next text
      ⟨processor.memory.cells.setIfInBounds address text⟩) :
    Computes address 1 text processor next where
  pc := passes.pc
  accumulator := passes.accumulator
  cell := by rw [passes.memory, Memory.read_setIfInBounds room]
  others := by
    intro other elsewhere
    rw [passes.memory, Memory.read_setIfInBounds_of_ne elsewhere]
  outputs := passes.outputs

end Blocks

/-- A cell that can be a term of an expression with a target. -/
structure IsTerm (memory : Memory) (target address : Nat) (text : String) : Prop where
  small : address < Instruction.addressSpace
  elsewhere : address ≠ target
  cell : memory.read address = .ok text
  literal : Decimal.isLiteral text = true
  fits : Decimal.digitCount text ≤ Decimal.digitLimit

theorem IsTerm.of_computes {target address count : Nat} {text result : String}
    (computes : Computes target count result processor next)
    (term : IsTerm processor.memory target address text) :
    IsTerm next.memory target address text :=
  { term with
    cell := by
      rw [computes.others _ (by exact_mod_cast term.elsewhere)]
      exact term.cell }

/-- One operator is a load, an operation and a store. -/
theorem exists_operation (environment : Environment σ) {target running address : Nat}
    {left right : String} {sign : Sign} {code : List Instruction}
    (smallTarget : target < Instruction.addressSpace)
    (room : target < processor.memory.size)
    (holds : Holds processor.memory processor.registers.pc
      (⟨Opcode.load.code, running⟩ :: ⟨(signOpcode sign).code, address⟩ ::
        ⟨Opcode.store.code, target⟩ :: code))
    (smallRunning : running < Instruction.addressSpace)
    (cell : processor.memory.read running = .ok left) (literal : Decimal.isLiteral left = true)
    (fits : Decimal.digitCount left ≤ Decimal.digitLimit)
    (term : IsTerm processor.memory target address right)
    (writable : Decimal.Writable (sign.apply (Decimal.valueOf left) (Decimal.valueOf right))) :
    ∃ next, Leads environment 3 processor next ∧
      Computes target 3
        (Decimal.text (sign.apply (Decimal.valueOf left) (Decimal.valueOf right)))
        processor next := by
  rcases exists_load environment smallRunning holds.head cell with
    ⟨loaded, load, afterLoad⟩
  rw [← afterLoad.accumulator] at literal fits writable ⊢
  have second := holds.tail.head
  rw [← afterLoad.pc, ← afterLoad.memory] at second
  have termCell := term.cell
  rw [← afterLoad.memory] at termCell
  rcases exists_operator environment term.small second termCell literal
    term.literal fits term.fits writable with ⟨combined, combine, afterOperator⟩
  have third := holds.tail.tail.head
  rw [← afterLoad.pc, ← afterOperator.pc, ← afterLoad.memory, ← afterOperator.memory] at third
  rw [← afterLoad.memory, ← afterOperator.memory] at room
  rcases exists_store environment smallTarget third room with
    ⟨stored, store, afterStore⟩
  rw [afterOperator.accumulator] at afterStore
  have kept := afterOperator.memory.trans afterLoad.memory
  have last := Passes.computes room afterStore
  refine ⟨stored, (load.trans combine).trans store, ?_⟩
  exact
    { pc := by rw [last.pc, afterOperator.pc, afterLoad.pc]
      accumulator := last.accumulator
      cell := last.cell
      others := fun other elsewhere => by rw [last.others other elsewhere, kept]
      outputs := by rw [last.outputs, afterOperator.outputs, afterLoad.outputs] }

/-! ## Expressions -/

/-- The value of a chain of operators, worked off from left to right. -/
def leftToRight (texts : String → String) (first : Int) (rest : List (Sign × String)) : Int :=
  rest.foldl (fun total term => term.1.apply total (Decimal.valueOf (texts term.2))) first

/-- No value on the way through a chain of operators has too many digits. -/
def Within (texts : String → String) (first : Int) (rest : List (Sign × String)) : Prop :=
  ∀ front, front ≠ [] → front <+: rest → Decimal.Writable (leftToRight texts first front)

theorem within_nil {texts : String → String} {first : Int} : Within texts first [] := by
  intro front given before
  exact absurd (List.prefix_nil.mp before) given

theorem within_cons_iff {texts : String → String} {first : Int} {sign : Sign} {term : String}
    {rest : List (Sign × String)} : Within texts first ((sign, term) :: rest) ↔
      Decimal.Writable (sign.apply first (Decimal.valueOf (texts term))) ∧
        Within texts (sign.apply first (Decimal.valueOf (texts term))) rest := by
  constructor
  · intro within
    refine ⟨within [(sign, term)] (by simp) (by simp), ?_⟩
    intro front _ before
    exact within ((sign, term) :: front) (by simp) (by simpa using before)
  · rintro ⟨now, later⟩ front given before
    rcases List.prefix_cons_iff.mp before with rfl | ⟨more, rfl, below⟩
    · exact absurd rfl given
    · cases more with
      | nil => exact now
      | cons other more => exact later (other :: more) (by simp) below

section Chains

variable {addresses : String → Nat} {texts : String → String} {target : String}

/-- The running value goes through the target from one operator to the next. -/
theorem exists_chain {rest : List (Sign × String)} {sign : Sign} {term running left : String}
    (smallTarget : addresses target < Instruction.addressSpace)
    (room : addresses target < processor.memory.size)
    (smallRunning : addresses running < Instruction.addressSpace)
    (cell : processor.memory.read (addresses running) = .ok left)
    (literal : Decimal.isLiteral left = true)
    (fits : Decimal.digitCount left ≤ Decimal.digitLimit)
    (holds : Holds processor.memory processor.registers.pc
      ((chain target running ((sign, term) :: rest)).map (Emitted.located addresses)))
    (apart : ∀ index < 3 + 3 * rest.length,
      processor.registers.pc + index ≠ addresses target)
    (terms : ∀ other ∈ (sign, term) :: rest,
      IsTerm processor.memory (addresses target) (addresses other.2) (texts other.2))
    (within : Within texts (Decimal.valueOf left) ((sign, term) :: rest)) :
    ∃ next, Leads environment (3 + 3 * rest.length) processor next ∧
      Computes (addresses target) (3 + 3 * rest.length)
        (Decimal.text (leftToRight texts (Decimal.valueOf left)
          ((sign, term) :: rest))) processor next := by
  induction rest generalizing sign term running left processor with
  | nil =>
      exact exists_operation environment smallTarget room holds smallRunning cell literal fits
        (terms _ List.mem_cons_self) (within_cons_iff.mp within).1
  | cons next rest ih =>
      rcases next with ⟨nextSign, nextTerm⟩
      rcases within_cons_iff.mp within with ⟨now, later⟩
      have head : IsTerm processor.memory (addresses target) (addresses term) (texts term) :=
        terms _ List.mem_cons_self
      rcases exists_operation environment smallTarget room holds smallRunning
        cell literal fits head now with ⟨middle, leads, computes⟩
      have short := Decimal.valueOf_text now
      have apartLater : ∀ index < 3 + 3 * rest.length,
          middle.registers.pc + index ≠ addresses target := by
        intro index before
        rw [computes.pc, Nat.add_assoc]
        exact apart (3 + index) (by rw [List.length_cons]; omega)
      have holdsLater : Holds middle.memory middle.registers.pc
          ((chain target target ((nextSign, nextTerm) :: rest)).map
            (Emitted.located addresses)) := by
        rw [computes.pc]
        refine Holds.of_computes computes ?_ holds.tail.tail.tail
        intro index before
        rw [List.length_map, length_chain, List.length_cons] at before
        rw [← computes.pc]
        exact apartLater index (by omega)
      have termsLater : ∀ other ∈ (nextSign, nextTerm) :: rest,
          IsTerm middle.memory (addresses target) (addresses other.2) (texts other.2) :=
        fun other member => (terms other (List.mem_cons_of_mem _ member)).of_computes computes
      rw [← short.2] at later
      rcases ih (Memory.lt_of_read computes.cell) smallTarget computes.cell
        (Decimal.isLiteral_text _) short.1 holdsLater apartLater termsLater later with
        ⟨last, others, whole⟩
      rw [short.2] at whole
      have size : 3 + 3 * ((nextSign, nextTerm) :: rest).length = 3 + (3 + 3 * rest.length) := by
        rw [List.length_cons]
        omega
      rw [size]
      exact ⟨last, leads.trans others, computes.trans whole⟩

end Chains

/-- A processor at the code of an expression, which stands anywhere in memory. The
variables have cells of their own outside of it, and literals in those of the
terms. -/
structure AtExpression (addresses : String → Nat) (texts : String → String)
    (target first : String) (rest : List (Sign × String)) (processor : Processor) : Prop where
  fresh : target ∉ Form.terms first rest
  code : Holds processor.memory processor.registers.pc
    ((lower target first rest).map (Emitted.located addresses))
  inRange : ∀ name ∈ target :: Form.terms first rest,
    addresses name < Instruction.addressSpace ∧ addresses name < processor.memory.size
  injective : ∀ one ∈ target :: Form.terms first rest, ∀ other ∈ target :: Form.terms first rest,
    addresses one = addresses other → one = other
  outside : ∀ name ∈ target :: Form.terms first rest,
    ∀ index < (lower target first rest).length,
      processor.registers.pc + index ≠ addresses name
  cells : ∀ term ∈ Form.terms first rest,
    processor.memory.read (addresses term) = .ok (texts term)
  literals : ∀ term ∈ Form.terms first rest, Decimal.isLiteral (texts term) = true

/-- The text that an expression comes to: a single term is copied. -/
def expressionText (texts : String → String) (first : String) (rest : List (Sign × String)) :
    String :=
  if rest.isEmpty then texts first
  else Decimal.text
    (leftToRight texts (Decimal.valueOf (texts first)) rest)

/-- No term of an expression with operators is too long to be read. -/
def TermsFit (texts : String → String) (first : String) (rest : List (Sign × String)) : Prop :=
  rest ≠ [] → ∀ term ∈ Form.terms first rest,
    Decimal.digitCount (texts term) ≤ Decimal.digitLimit

/-- The code of an expression has the size that its line is laid out with, and
computes the expression. -/
structure Lowers (environment : Environment σ) (addresses : String → Nat)
    (texts : String → String) (target first : String) (rest : List (Sign × String))
    (processor : Processor) : Prop where
  length : (lower target first rest).length = if rest.isEmpty then 2 else 3 * rest.length
  counted : ∀ marked : Marked, marked.line.form = .expression target first rest →
    marked.kept = true → marked.size = (lower target first rest).length
  emitted : ∀ labels symbols, ∀ marked : Marked,
    marked.line.form = .expression target first rest → marked.kept = true →
      ∀ code below, emitLine labels symbols marked = .ok (code, below) →
        code = lower target first rest
  computes : ∃ next, Leads environment (lower target first rest).length processor next ∧
    Computes (addresses target) (lower target first rest).length
      (expressionText texts first rest) processor next

section Expressions

variable {addresses : String → Nat} {texts : String → String} {target first : String}
  {rest : List (Sign × String)}

/-- The terms of an expression whose texts fit are cells that can be combined. -/
theorem AtExpression.isTerm (there : AtExpression addresses texts target first rest processor)
    (fit : ∀ term ∈ Form.terms first rest, Decimal.digitCount (texts term) ≤ Decimal.digitLimit)
    {term : String} (member : term ∈ Form.terms first rest) :
    IsTerm processor.memory (addresses target) (addresses term) (texts term) where
  small := (there.inRange term (List.mem_cons_of_mem _ member)).1
  elsewhere := by
    intro same
    have alike : term = target :=
      there.injective term (List.mem_cons_of_mem _ member) target List.mem_cons_self same
    exact there.fresh (alike ▸ member)
  cell := there.cells term member
  literal := there.literals term member
  fits := fit term member

theorem exists_computes_copy (environment : Environment σ)
    (there : AtExpression addresses texts target first [] processor) :
    ∃ next, Leads environment 2 processor next ∧
      Computes (addresses target) 2 (texts first) processor next := by
  have place := there.inRange target List.mem_cons_self
  have source := there.inRange first (by simp [Form.terms])
  rcases exists_load environment source.1 there.code.head
    (there.cells first (by simp [Form.terms])) with ⟨loaded, load, afterLoad⟩
  have second := there.code.tail.head
  rw [← afterLoad.pc, ← afterLoad.memory] at second
  have room := place.2
  rw [← afterLoad.memory] at room
  rcases exists_store environment place.1 second room with
    ⟨stored, store, afterStore⟩
  rw [afterLoad.accumulator] at afterStore
  have last := Passes.computes room afterStore
  refine ⟨stored, load.trans store, ?_⟩
  exact
    { pc := by rw [last.pc, afterLoad.pc]
      accumulator := last.accumulator
      cell := last.cell
      others := fun other elsewhere => by rw [last.others other elsewhere, afterLoad.memory]
      outputs := by rw [last.outputs, afterLoad.outputs] }

theorem exists_computes_chain (environment : Environment σ) {sign : Sign} {term : String}
    (there : AtExpression addresses texts target first ((sign, term) :: rest) processor)
    (fit : ∀ name ∈ Form.terms first ((sign, term) :: rest),
      Decimal.digitCount (texts name) ≤ Decimal.digitLimit)
    (within : Within texts (Decimal.valueOf (texts first))
      ((sign, term) :: rest)) :
    ∃ next, Leads environment (3 + 3 * rest.length) processor next ∧
      Computes (addresses target) (3 + 3 * rest.length)
        (Decimal.text (leftToRight texts (Decimal.valueOf (texts first))
          ((sign, term) :: rest))) processor next := by
  have place := there.inRange target List.mem_cons_self
  have head : IsTerm processor.memory (addresses target) (addresses first) (texts first) :=
    there.isTerm fit List.mem_cons_self
  have apart := there.outside target List.mem_cons_self
  rw [length_lower, expressionSize_cons] at apart
  exact exists_chain place.1 place.2 head.small head.cell head.literal head.fits there.code apart
    (fun other member => there.isTerm fit (List.mem_cons_of_mem _ (List.mem_map_of_mem member)))
    within

/-- The code of an expression computes it wherever it stands, unless a term or a value
on the way is too long. -/
theorem lowers (environment : Environment σ)
    (there : AtExpression addresses texts target first rest processor)
    (fit : TermsFit texts first rest)
    (within : Within texts (Decimal.valueOf (texts first)) rest) :
    Lowers environment addresses texts target first rest processor where
  length := length_lower target first rest
  counted := by
    intro marked form kept
    rw [length_lower, Marked.size, form]
    exact if_pos kept
  emitted := by
    intro labels symbols marked form kept code below emitted
    cases emits_of_emitLine emitted with
    | lowered other =>
        cases form.symm.trans other
        rfl
    | silent undeclared =>
        rw [form] at undeclared
        cases undeclared
    | dropped _ dropped =>
        rw [kept] at dropped
        cases dropped
    | literal other | halt other | branch other | access other =>
        cases form.symm.trans other
  computes := by
    rw [length_lower]
    cases rest with
    | nil =>
        rw [show expressionText texts first [] = texts first from rfl]
        exact exists_computes_copy environment there
    | cons term rest =>
        rw [expressionSize_cons]
        exact exists_computes_chain environment there (fit (List.cons_ne_nil term rest)) within

end Expressions

/-- A variable is subtracted from another one and added again; the code stands behind
another word. -/
theorem lowers_repeated_term :
    let addresses := fun name => if name = "t" then 8 else if name = "a" then 9 else 10
    let texts := fun name => if name = "a" then "+007" else "-012"
    let rest := [(Sign.minus, "b"), (.plus, "a")]
    let memory : Memory := ⟨#["4300", "2009", "3110", "2108", "2008", "3009", "2108", "4300",
      "0000", "+007", "-012"]⟩
    let processor : Processor :=
      { ofMemory memory with registers := { Registers.initial with pc := 1 } }
    (AtExpression addresses texts "t" "a" rest processor ∧ TermsFit texts "a" rest ∧
      Within texts (Decimal.valueOf (texts "a")) rest) ∧
    Lowers .ofInputs addresses texts "t" "a" rest processor ∧
      expressionText texts "a" rest = "26" := by
  intro addresses texts rest memory processor
  have there : AtExpression addresses texts "t" "a" rest processor := by
    constructor <;> decide +kernel
  have fit : TermsFit texts "a" rest := by
    intro _
    decide
  have within : Within texts (Decimal.valueOf (texts "a")) rest := by
    rw [within_cons_iff, within_cons_iff]
    exact ⟨by decide, by decide, within_nil⟩
  exact ⟨⟨there, fit, within⟩, lowers .ofInputs there fit within, by decide⟩

/-! ## Terms that are too long -/

/-- An operator does not get past a term that is too long. -/
theorem after_ne_ok_of_long {sign : Sign} {operand : Nat} {text : String}
    (small : operand < Instruction.addressSpace)
    (word : processor.memory.read processor.registers.pc =
      .ok (Instruction.mk (signOpcode sign).code operand).render)
    (cell : processor.memory.read operand = .ok text)
    (left : Decimal.isLiteral processor.registers.accumulator = true)
    (right : Decimal.isLiteral text = true)
    (long : Decimal.digitLimit < Decimal.digitCount text) (count : Nat) (state : σ)
    (reached : Processor × σ) :
    after (plainCycle environment) (count + 1) (processor, state) ≠ .ok reached := by
  rcases decodes_of_read small word with ⟨inside, decodes⟩
  have there : (processor.atInstruction (signOpcode sign) operand).memory.read operand =
      .ok text := cell
  rcases combine_of_not_fits (f := sign.apply) there left right
    (fun fits => Nat.not_le_of_lt long fits.2.1) with ⟨error, combined⟩
  have operates : ∃ later, processor.cycle environment state =
      (processor.atInstruction (signOpcode sign) operand).settle (.error (.limit error)) later :=
    combined ▸ cycle_operator decodes
  rcases operates with ⟨later, executed⟩
  have ended : plainCycle environment (processor, state) =
      .error (.failed (.limit error), processor.atInstruction (signOpcode sign) operand,
        later) := by
    simp only [plainCycle, inside, executed, settle, if_true]
  rw [after_succ_of_error ended]
  rintro ⟨⟩

/-- A zero of 4301 digits is not added to a one, although their sum is short. -/
theorem not_lowers_long_term :
    let addresses := fun name => if name = "a" then 4 else if name = "b" then 5 else 6
    let texts := fun name => if name = "a" then "1" else Decimal.zeroText 4301
    let rest := [(Sign.plus, "b")]
    let processor : Processor :=
      .ofMemory ⟨#["2004", "3005", "2106", "4300", "1", Decimal.zeroText 4301, "0"]⟩
    AtExpression addresses texts "c" "a" rest processor ∧
      Within texts (Decimal.valueOf (texts "a")) rest ∧
      ¬ Lowers .ofInputs addresses texts "c" "a" rest processor := by
  intro addresses texts rest processor
  have literal : Decimal.isLiteral (Decimal.zeroText 4301) = true :=
    Decimal.isLiteral_zeroText (by decide)
  have there : AtExpression addresses texts "c" "a" rest processor := by
    constructor
    case cells =>
      intro term member
      rcases List.mem_cons.mp member with rfl | member
      · rfl
      · rcases List.mem_singleton.mp member with rfl
        rfl
    case literals =>
      intro term member
      rcases List.mem_cons.mp member with rfl | member
      · decide
      · rcases List.mem_singleton.mp member with rfl
        exact literal
    all_goals decide +kernel
  refine ⟨there, ?_, ?_⟩
  · rw [within_cons_iff, show texts "b" = Decimal.zeroText 4301 from rfl,
      Decimal.valueOf_zeroText (by decide)]
    exact ⟨by decide, within_nil⟩
  · intro lowered
    rcases lowered.computes with ⟨next, leads, _⟩
    rcases exists_load .ofInputs (there.inRange "a" (by decide)).1 there.code.head
      (there.cells "a" (by decide)) with ⟨loaded, load, afterLoad⟩
    rcases leads [] with ⟨rest, run⟩
    rcases load [] with ⟨later, first⟩
    have second : loaded.memory.read loaded.registers.pc =
        .ok (Instruction.mk (signOpcode .plus).code (5 : Nat)).render := by
      rw [afterLoad.memory, afterLoad.pc]
      exact there.code.tail.head
    have cell : loaded.memory.read (5 : Nat) = .ok (Decimal.zeroText 4301) := by
      rw [afterLoad.memory]
      rfl
    have one : Decimal.isLiteral loaded.registers.accumulator = true := by
      rw [afterLoad.accumulator]
      decide
    have long : Decimal.digitLimit < Decimal.digitCount (Decimal.zeroText 4301) := by
      rw [Decimal.digitCount_zeroText (by decide)]
      decide
    exact after_ne_ok_of_long (by decide) second cell one literal long 1 later (next, rest)
      ((after_add first 2).symm.trans run)

end Processor

end DecimalMachine
