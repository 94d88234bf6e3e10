import DecimalMachine.Processor.Run
import DecimalMachine.Program.Emission
import DecimalMachine.Proofs.Memory.Cells
import DecimalMachine.Proofs.Processor.Cycle
import DecimalMachine.Proofs.Processor.Effects
import DecimalMachine.Proofs.Source.Literals
import DecimalMachine.Proofs.Text.Lines
import Mathlib.Logic.Basic

/-!
# Numbers that are too long

An instruction fails with a fault of the program or because a number in it is
too long to be converted.  It is too long where a literal in the accumulator, in
the cell of the operand or in the input has more digits than a conversion takes,
or where the result would have.  Numbers within the limit are read and combined
exactly.
-/

namespace DecimalMachine

namespace Decimal

/-- The number of digits of a literal, leading zeros included. -/
def digitCount (text : String) : Nat :=
  numeralLength (Text.dropFinalNewline text.toList)

/-- The integer that a literal denotes, however long it is. -/
def valueOf (text : String) : Int :=
  numeralValue (Text.dropFinalNewline text.toList)

theorem read_eq (text : String) :
    read text = if digitCount text ≤ digitLimit then .ok (valueOf text)
      else .error (.numeral (digitCount text)) :=
  rfl

/-- A digit any number of times is a numeral. -/
theorem isDigits_replicate {c : Char} (digit : c.isDigit = true) {count : Nat}
    (positive : 0 < count) : isDigits (List.replicate count c) = true := by
  simp [isDigits, Nat.ne_of_gt positive, digit]

/-- A literal of more digits than a conversion takes. -/
def IsTooLong (text : String) : Prop :=
  isLiteral text = true ∧ digitLimit < digitCount text

end Decimal

namespace Processor

variable {σ : Type}

/-- Combining the accumulator with a cell meets a number that is too long: one of
the two, or the result. -/
def CombineExceeds (processor : Processor) (operand : Nat) (f : Int → Int → Int) : Prop :=
  Decimal.IsTooLong processor.registers.accumulator ∨
    ∃ text, processor.memory.read operand = .ok text ∧
      (Decimal.IsTooLong text ∨
        Decimal.isLiteral processor.registers.accumulator = true ∧
          Decimal.isLiteral text = true ∧
          ¬ Decimal.Writable
            (f (Decimal.valueOf processor.registers.accumulator) (Decimal.valueOf text)))

/-- An operation meets a number that is too long, when the environment is in a
state. -/
def Exceeds (environment : Environment σ) (processor : Processor) (opcode : Opcode)
    (operand : Nat) (state : σ) : Prop :=
  match opcode with
  | .read => ∃ raw, (environment.input operand state).1 = some raw ∧
      Decimal.IsTooLong (Text.trim raw)
  | .add => processor.CombineExceeds operand (· + ·)
  | .subtract => processor.CombineExceeds operand (· - ·)
  | .branchNeg | .branchZero => Decimal.IsTooLong processor.registers.accumulator
  | _ => False

/-- The instruction at the program counter meets a number that is too long, when
the environment is in some state. -/
def Strained (environment : Environment σ) (processor : Processor) : Prop :=
  ∃ (opcode : Opcode) (operand : Nat) (state : σ),
    Instruction.ofText? processor.fetch = some ⟨opcode.code, operand⟩ ∧
      Exceeds environment processor opcode operand state

/-! ## What meets the limit -/

section Parts

variable {environment : Environment σ} {processor : Processor} {operand : Nat} {state : σ}
  {text : String} {cause : FaultCause} {error : Decimal.LimitError}

theorem number_of_literal (literal : Decimal.isLiteral text = true) :
    processor.number text cause =
      if Decimal.digitCount text ≤ Decimal.digitLimit then .ok (Decimal.valueOf text)
      else .error (.limit (.numeral (Decimal.digitCount text))) := by
  rw [number, if_pos literal, Decimal.read_eq]
  split <;> rfl

theorem isTooLong_of_number (failed : processor.number text cause = .error (.limit error)) :
    Decimal.IsTooLong text := by
  by_cases literal : Decimal.isLiteral text = true
  · rw [number_of_literal literal] at failed
    by_cases fits : Decimal.digitCount text ≤ Decimal.digitLimit
    · rw [if_pos fits] at failed
      cases failed
    · exact ⟨literal, Nat.lt_of_not_le fits⟩
  · rw [number, if_neg literal] at failed
    cases failed

theorem literal_of_number {value : Int} (read : processor.number text cause = .ok value) :
    Decimal.isLiteral text = true ∧ value = Decimal.valueOf text := by
  by_cases literal : Decimal.isLiteral text = true
  · rw [number_of_literal literal] at read
    by_cases fits : Decimal.digitCount text ≤ Decimal.digitLimit
    · rw [if_pos fits] at read
      exact ⟨literal, (Except.ok.inj read).symm⟩
    · rw [if_neg fits] at read
      cases read
  · rw [number, if_neg literal] at read
    cases read

theorem cell_eq_ok_iff : processor.cell operand = .ok text ↔
    processor.memory.read operand = .ok text := by
  rw [cell]
  cases processor.memory.read operand <;> simp [Except.mapError]

theorem cell_ne_limit : processor.cell operand ≠ .error (.limit error) := by
  rw [cell]
  cases processor.memory.read operand <;> simp [Except.mapError, fault]

theorem combineExceeds_of_combine {f : Int → Int → Int}
    (failed : processor.combine operand f = .error (.limit error)) :
    processor.CombineExceeds operand f := by
  rw [combine, bind_eq_error_iff] at failed
  rcases failed with left | ⟨left, leftRead, failed⟩
  · exact .inl (isTooLong_of_number left)
  rw [bind_eq_error_iff] at failed
  rcases failed with right | ⟨right, rightRead, failed⟩
  · rw [cellNumber, bind_eq_error_iff] at right
    rcases right with missing | ⟨text, here, long⟩
    · exact absurd missing cell_ne_limit
    · exact .inr ⟨text, cell_eq_ok_iff.mp here, .inl (isTooLong_of_number long)⟩
  · rw [cellNumber, bind_eq_ok_iff] at rightRead
    rcases rightRead with ⟨text, here, rightRead⟩
    rcases literal_of_number leftRead with ⟨leftLiteral, rfl⟩
    rcases literal_of_number rightRead with ⟨rightLiteral, rfl⟩
    refine .inr ⟨text, cell_eq_ok_iff.mp here, .inr ⟨leftLiteral, rightLiteral, ?_⟩⟩
    intro writable
    rw [Decimal.write_eq, if_pos writable] at failed
    cases failed

theorem isTooLong_of_branchIf {test : Int → Bool}
    (failed : processor.branchIf operand test = .error (.limit error)) :
    Decimal.IsTooLong processor.registers.accumulator := by
  rw [branchIf, bind_eq_error_iff] at failed
  rcases failed with long | ⟨_, _, ⟨⟩⟩
  exact isTooLong_of_number long

theorem isTooLong_of_inputValue {raw : String}
    (failed : processor.inputValue operand (some raw) = .error (.limit error)) :
    Decimal.IsTooLong (Text.trim raw) := by
  rw [inputValue, bind_eq_error_iff] at failed
  rcases failed with long | ⟨_, _, ⟨⟩⟩
  exact isTooLong_of_number long

theorem writeCell_ne_limit {value : String} :
    (processor.writeCell environment operand value state).1 ≠ .failed (.limit error) := by
  rw [writeCell]
  split <;> simp [fault]

/-- An operation that meets the limit works on a number that is too long. -/
theorem exceeds_of_execute {opcode : Opcode}
    (failed : (processor.execute environment opcode operand state).1 = .failed (.limit error)) :
    Exceeds environment processor opcode operand state := by
  cases opcode with
  | read =>
      rw [execute, readInput] at failed
      rcases asked : environment.input operand state with ⟨answer, rest⟩
      rw [asked] at failed
      cases answer with
      | none => cases failed
      | some raw =>
          cases value : processor.inputValue operand (some raw) with
          | ok value =>
              simp only [value] at failed
              exact absurd failed writeCell_ne_limit
          | error reason =>
              simp only [value, Progress.failed.injEq] at failed
              rw [failed] at value
              exact ⟨raw, by rw [asked], isTooLong_of_inputValue value⟩
  | write =>
      rw [execute, writeOutput] at failed
      cases here : processor.cell operand with
      | ok text =>
          simp only [here] at failed
          cases failed
      | error reason =>
          simp only [here, Progress.failed.injEq] at failed
          rw [failed] at here
          exact absurd here cell_ne_limit
  | load =>
      have failed := settle_eq_failed failed
      cases here : processor.cell operand with
      | ok text =>
          rw [here] at failed
          cases failed
      | error reason =>
          rw [here] at failed
          cases failed
          exact absurd here cell_ne_limit
  | store => exact absurd failed writeCell_ne_limit
  | add | subtract => exact combineExceeds_of_combine (settle_eq_failed failed)
  | branch | halt => cases failed
  | branchNeg | branchZero => exact isTooLong_of_branchIf (settle_eq_failed failed)

end Parts

/-! ## Steps and runs -/

section Calls

variable {environment : Environment σ} {processor : Processor} {operand : Nat} {state : σ}
  {error : Decimal.LimitError}

/-- A cycle that meets the limit leaves the processor at an instruction with a
number that is too long. -/
theorem strained_of_cycle {next : Processor} {rest : σ}
    (executed : processor.cycle environment state = (.failed (.limit error), next, rest)) :
    Strained environment next := by
  have how := cycled environment processor state
  rw [executed] at how
  cases how with
  | @executed opcode operand _ word _ execute =>
      have failed := congrArg Prod.fst execute
      have same := execute_of_failed failed
      rw [execute] at same
      cases same
      exact ⟨opcode, operand, _, word, exceeds_of_execute failed⟩

/-- A step fails with a fault, or at a number that is too long. -/
theorem strained_of_step {next : Processor} {rest : σ}
    (stepped : processor.step environment state = (.failed (.limit error), next, rest)) :
    Strained environment next := by
  unfold step at stepped
  split at stepped
  · cases stepped
  simp only at stepped
  split at stepped
  · split at stepped
    · cases stepped
    · cases stepped
    · next executed =>
        cases stepped
        exact strained_of_cycle executed
  · cases stepped

theorem strained_of_runFrom {fuel : Nat} {resumed : Option Nat} {next : Processor} {rest : σ}
    (ran : runFrom environment fuel resumed processor state =
      (.failed (.limit error), next, rest)) : Strained environment next := by
  induction fuel generalizing resumed processor state with
  | zero => cases ran
  | succ fuel ih =>
      unfold runFrom at ran
      split at ran
      · split at ran
        · cases ran
        · split at ran
          · exact ih ran
          · cases ran
          · cases ran
          · next executed =>
              cases ran
              exact strained_of_cycle executed
      · cases ran

/-- A run fails with a fault, or at a number that is too long. -/
theorem strained_of_run {fuel : Nat} {next : Processor} {rest : σ}
    (ran : processor.run environment fuel state = (.failed (.limit error), next, rest)) :
    Strained environment next := by
  unfold run at ran
  split at ran
  · cases ran
  · exact strained_of_runFrom ran

end Calls

/-! ## Numbers within the limit -/

section Numbers

variable {environment : Environment σ} {processor : Processor} {operand : Nat} {state : σ}

section Reading

variable {raw : String}
  (decodes : Instruction.ofText? processor.fetch = some ⟨Opcode.read.code, operand⟩)
  (answer : (environment.input operand
    (environment.trace (processor.atInstruction .read operand).registers state)).1 = some raw)
  (literal : Decimal.isLiteral (Text.trim raw) = true)

include decodes answer literal

/-- Reading a literal within the limit stores its integer. -/
theorem cycle_read_of_fits (valid : processor.memory.isValid operand = true)
    (fits : Decimal.digitCount (Text.trim raw) ≤ Decimal.digitLimit) :
    ∃ refused next rest, processor.cycle environment state = (.advanced refused, next, rest) ∧
      next.memory.read operand = .ok (Decimal.text (Decimal.valueOf (Text.trim raw))) := by
  rw [cycle_of_ofText? decodes, execute, readInput]
  rcases asked : environment.input operand
    (environment.trace (processor.atInstruction .read operand).registers state) with ⟨given, rest⟩
  rw [asked] at answer
  cases answer
  have value : (processor.atInstruction .read operand).inputValue operand (some raw) =
      .ok (Decimal.text (Decimal.valueOf (Text.trim raw))) := by
    simp only [inputValue, number_of_literal literal, if_pos fits, bind, Except.bind, pure,
      Except.pure]
  have inside := Memory.isValid_iff.mp valid
  have written : (processor.atInstruction .read operand).memory.write operand
      (Decimal.text (Decimal.valueOf (Text.trim raw))) = .ok ⟨_⟩ :=
    Memory.write_of_lt inside _
  simp only [value, writeCell, written]
  exact ⟨_, _, _, rfl, Memory.read_setIfInBounds inside _⟩

/-- Reading a literal beyond the limit fails at it. -/
theorem cycle_read_of_not_fits
    (long : Decimal.digitLimit < Decimal.digitCount (Text.trim raw)) :
    ∃ next rest, processor.cycle environment state =
        (.failed (.limit (.numeral (Decimal.digitCount (Text.trim raw)))), next, rest) ∧
      next.memory = processor.memory := by
  rw [cycle_of_ofText? decodes, execute, readInput]
  rcases asked : environment.input operand
    (environment.trace (processor.atInstruction .read operand).registers state) with ⟨given, rest⟩
  rw [asked] at answer
  cases answer
  have value : (processor.atInstruction .read operand).inputValue operand (some raw) =
      .error (.limit (.numeral (Decimal.digitCount (Text.trim raw)))) := by
    simp only [inputValue, number_of_literal literal, if_neg (Nat.not_le_of_lt long), bind,
      Except.bind]
  simp only [value]
  exact ⟨_, _, rfl, rfl⟩

end Reading

section Operators

variable {text : String}
  (here : processor.memory.read operand = .ok text)
  (left : Decimal.isLiteral processor.registers.accumulator = true)
  (right : Decimal.isLiteral text = true)

include here right in
theorem cellNumber_of_literal :
    processor.cellNumber operand =
      if Decimal.digitCount text ≤ Decimal.digitLimit then .ok (Decimal.valueOf text)
      else .error (.limit (.numeral (Decimal.digitCount text))) := by
  have cell : processor.cell operand = .ok text := cell_eq_ok_iff.mpr here
  rw [cellNumber, cell]
  exact number_of_literal right

include here left right

/-- Two literals are combined exactly, as long as they and the result keep within
the limit. -/
theorem combine_of_fits {f : Int → Int → Int}
    (leftFits : Decimal.digitCount processor.registers.accumulator ≤ Decimal.digitLimit)
    (rightFits : Decimal.digitCount text ≤ Decimal.digitLimit)
    (writable : Decimal.Writable
      (f (Decimal.valueOf processor.registers.accumulator) (Decimal.valueOf text))) :
    processor.combine operand f = .ok (processor.accumulate (Decimal.text
      (f (Decimal.valueOf processor.registers.accumulator) (Decimal.valueOf text)))).advance := by
  simp only [combine, accumulatorNumber, number_of_literal left, if_pos leftFits,
    cellNumber_of_literal here right, if_pos rightFits, Decimal.write_eq, if_pos writable,
    Except.mapError, bind, Except.bind, pure, Except.pure]

/-- Two literals are not combined where one of them or the result is beyond the
limit. -/
theorem combine_of_not_fits {f : Int → Int → Int}
    (long : ¬ (Decimal.digitCount processor.registers.accumulator ≤ Decimal.digitLimit ∧
      Decimal.digitCount text ≤ Decimal.digitLimit ∧
      Decimal.Writable
        (f (Decimal.valueOf processor.registers.accumulator) (Decimal.valueOf text)))) :
    ∃ error, processor.combine operand f = .error (.limit error) := by
  simp only [combine, accumulatorNumber, number_of_literal left,
    cellNumber_of_literal here right, Decimal.write_eq]
  by_cases leftFits : Decimal.digitCount processor.registers.accumulator ≤ Decimal.digitLimit
  · by_cases rightFits : Decimal.digitCount text ≤ Decimal.digitLimit
    · have unwritable : ¬ Decimal.Writable
          (f (Decimal.valueOf processor.registers.accumulator) (Decimal.valueOf text)) :=
        fun writable => long ⟨leftFits, rightFits, writable⟩
      rw [if_pos leftFits, if_pos rightFits]
      exact ⟨.result, by simp [bind, Except.bind, unwritable, Except.mapError]⟩
    · rw [if_pos leftFits, if_neg rightFits]
      exact ⟨_, rfl⟩
  · rw [if_neg leftFits]
    exact ⟨_, rfl⟩

omit here left right in
theorem cycle_operator {sign : Sign}
    (decodes : Instruction.ofText? processor.fetch =
      some ⟨(Program.signOpcode sign).code, operand⟩) :
    ∃ rest, processor.cycle environment state =
      (processor.atInstruction (Program.signOpcode sign) operand).settle
        ((processor.atInstruction (Program.signOpcode sign) operand).combine operand sign.apply)
        rest := by
  rw [cycle_of_ofText? decodes]
  cases sign with
  | plus => exact ⟨_, rfl⟩
  | minus => exact ⟨_, rfl⟩

end Operators

end Numbers

end Processor

/-! ## Only numbers are limited -/

/-- A source is compiled or refused for an error of its own, unless it has a
literal that is too long. -/
structure Compilation.FailsOnlyBeyondLimit (options : CompileOptions) (file source : String) :
    Prop where
  within : (¬ ∃ digits, Source.HasLongLiteral source digits) →
    (∃ compilation, ofSource options file source = .ok compilation) ∨
      ∃ error, ofSource options file source = .error (.source error)
  beyond : ∀ digits, Source.HasLongLiteral source digits →
    ofSource options file source = .error (.limit (.numeral digits))

/-- A declaration by a literal is read with the value of the literal, unless that
is too long. -/
def Line.ReadsLiteral (text : String) (location : Location) (name literal : List Char) : Prop :=
  Line.read text location =
    if Decimal.numeralLength literal ≤ Decimal.digitLimit then
      .ok ⟨.variable (.ofList name) (Decimal.numeralValue literal), Text.trim text, location⟩
    else .error (.limit (.numeral (Decimal.numeralLength literal)))

/-- Execution fails with faults, unless it is at an instruction with a number that
is too long.  Literals are read, added and subtracted exactly, if and only if they
and the result keep within the limit. -/
structure Processor.FailsOnlyBeyondLimit {σ : Type} (environment : Environment σ)
    (processor : Processor) (state : σ) : Prop where
  step : ∀ error next rest, processor.step environment state = (.failed error, next, rest) →
    (∃ raised, error = .fault raised) ∨ Strained environment next
  run : ∀ fuel error next rest,
    processor.run environment fuel state = (.failed error, next, rest) →
      (∃ raised, error = .fault raised) ∨ Strained environment next
  read : ∀ (operand : Nat) raw,
    Instruction.ofText? processor.fetch = some ⟨Opcode.read.code, operand⟩ →
    (environment.input operand
      (environment.trace (processor.atInstruction .read operand).registers state)).1 = some raw →
    Decimal.isLiteral (Text.trim raw) = true → processor.memory.isValid operand = true →
      if Decimal.digitCount (Text.trim raw) ≤ Decimal.digitLimit then
        ∃ refused next rest,
          processor.cycle environment state = (.advanced refused, next, rest) ∧
            next.memory.read operand = .ok (Decimal.text (Decimal.valueOf (Text.trim raw)))
      else ∃ error next rest,
        processor.cycle environment state = (.failed (.limit error), next, rest) ∧
          next.memory = processor.memory
  operator : ∀ (sign : Sign) (operand : Nat) text,
    Instruction.ofText? processor.fetch = some ⟨(Program.signOpcode sign).code, operand⟩ →
    processor.memory.read operand = .ok text →
    Decimal.isLiteral processor.registers.accumulator = true → Decimal.isLiteral text = true →
      ∀ result, result =
          sign.apply (Decimal.valueOf processor.registers.accumulator) (Decimal.valueOf text) →
        if Decimal.digitCount processor.registers.accumulator ≤ Decimal.digitLimit ∧
            Decimal.digitCount text ≤ Decimal.digitLimit ∧ Decimal.Writable result then
          ∃ next rest, processor.cycle environment state = (.advanced none, next, rest) ∧
            next.registers.accumulator = Decimal.text result
        else ∃ error next rest,
          processor.cycle environment state = (.failed (.limit error), next, rest) ∧
            next.registers.accumulator = processor.registers.accumulator

theorem Compilation.failsOnlyBeyondLimit (options : CompileOptions) (file source : String) :
    FailsOnlyBeyondLimit options file source where
  within := by
    intro short
    cases outcome : ofSource options file source with
    | ok compilation => exact .inl ⟨compilation, rfl⟩
    | error rejection =>
        cases rejection with
        | source error => exact .inr ⟨error, rfl⟩
        | limit error =>
            rcases ofSource_eq_limit_iff.mp outcome with ⟨digits, long, _⟩
            exact absurd ⟨digits, long⟩ short
  beyond := fun digits long => ofSource_eq_limit_iff.mpr ⟨digits, long, rfl⟩

theorem Line.readsLiteral {text : String} {name literal : List Char}
    (declares : DeclaresLiteral text name literal) (location : Location) :
    ReadsLiteral text location name literal := by
  rw [ReadsLiteral, Line.read]
  simp only [Line.readTrimmed_literal declares]
  by_cases fits : Decimal.numeralLength literal ≤ Decimal.digitLimit
  · simp only [if_pos fits]
  · simp only [if_neg fits]

theorem Processor.failsOnlyBeyondLimit {σ : Type} (environment : Environment σ)
    (processor : Processor) (state : σ) :
    FailsOnlyBeyondLimit environment processor state where
  step := by
    intro error next rest stepped
    cases error with
    | fault raised => exact .inl ⟨raised, rfl⟩
    | limit error => exact .inr (strained_of_step stepped)
  run := by
    intro fuel error next rest ran
    cases error with
    | fault raised => exact .inl ⟨raised, rfl⟩
    | limit error => exact .inr (strained_of_run ran)
  read := by
    intro operand raw decodes answer literal valid
    -- Splitting the conditional itself makes Lean evaluate the comparison with the limit.
    rw [ite_prop_iff_and]
    constructor
    · exact cycle_read_of_fits decodes answer literal valid
    · intro long
      rcases cycle_read_of_not_fits decodes answer literal (Nat.lt_of_not_le long) with
        ⟨next, rest, executed, same⟩
      exact ⟨_, next, rest, executed, same⟩
  operator := by
    rintro sign operand text decodes here left right result rfl
    rcases cycle_operator decodes with ⟨rest, executed⟩
    rw [executed]
    -- Decoding touches neither the accumulator nor the memory.
    have there : (processor.atInstruction (Program.signOpcode sign) operand).memory.read operand =
        .ok text := here
    split
    · next fits =>
        rw [combine_of_fits there left right fits.1 fits.2.1 fits.2.2]
        exact ⟨_, _, rfl, rfl⟩
    · next long =>
        rcases combine_of_not_fits there left right long with ⟨error, combined⟩
        rw [combined]
        exact ⟨error, _, _, rfl, rfl⟩

/-- Only the length of numbers is limited: sources, declarations by literals and
executions fail for their own errors, or beyond the digit limit. -/
theorem fails_only_beyond_limit (options : CompileOptions) (file source text : String)
    (location : Location) (name literal : List Char) {σ : Type} (environment : Environment σ)
    (processor : Processor) (state : σ) :
    Compilation.FailsOnlyBeyondLimit options file source ∧
      (DeclaresLiteral text name literal → Line.ReadsLiteral text location name literal) ∧
      processor.FailsOnlyBeyondLimit environment state := by
  constructor
  · exact Compilation.failsOnlyBeyondLimit options file source
  constructor
  · exact fun declares => Line.readsLiteral declares location
  · exact Processor.failsOnlyBeyondLimit environment processor state

theorem fails_only_beyond_limit_short :
    DeclaresLiteral "n = -07" ['n'] ['-', '0', '7'] ∧
      Line.read "n = -07" ⟨"<input>", 1⟩ =
        .ok ⟨.variable "n" (-7), "n = -07", ⟨"<input>", 1⟩⟩ ∧
      Instruction.ofText? (Processor.ofMemory ⟨#["1001", "4300"]⟩).fetch =
        some ⟨Opcode.read.code, (1 : Nat)⟩ ∧
      ∃ refused next rest,
        (Processor.ofMemory ⟨#["1001", "4300"]⟩).cycle .ofInputs ["+012"] =
            (.advanced refused, next, rest) ∧ next.memory.read (1 : Nat) = .ok "12" := by
  have declares : DeclaresLiteral "n = -07" ['n'] ['-', '0', '7'] :=
    ⟨by decide, by decide, by decide⟩
  have decodes : Instruction.ofText? (Processor.ofMemory ⟨#["1001", "4300"]⟩).fetch =
      some ⟨Opcode.read.code, (1 : Nat)⟩ := by
    decide
  have literal : Decimal.isLiteral (Text.trim "+012") = true := by decide
  have limits := fails_only_beyond_limit {} "<input>" "n = -07" "n = -07" ⟨"<input>", 1⟩ ['n']
    ['-', '0', '7'] .ofInputs (.ofMemory ⟨#["1001", "4300"]⟩) ["+012"]
  have line := limits.2.1 declares
  have read := limits.2.2.read 1 "+012" decodes rfl literal rfl
  rw [Line.ReadsLiteral, if_pos (by decide)] at line
  rw [if_pos (by decide)] at read
  exact ⟨declares, line, decodes, read⟩

namespace Source

/-- A source that declares a literal of so many sevens, and writes it. -/
def ofSevens (count : Nat) : String :=
  .ofList ('a' :: '=' :: List.replicate count '7' ++ "\nWRITE a\nHALT".toList)

theorem hasLongLiteral_ofSevens {count : Nat} (long : Decimal.digitLimit < count) :
    HasLongLiteral (ofSevens count) count := by
  let first := 'a' :: '=' :: List.replicate count '7'
  have members : ∀ c ∈ first, c = 'a' ∨ c = '=' ∨ c = '7' := by
    intro c member
    simp only [first, List.mem_cons, List.mem_replicate] at member
    rcases member with name | equals | ⟨_, digit⟩
    · exact .inl name
    · exact .inr (.inl equals)
    · exact .inr (.inr digit)
  have blank : ∀ c ∈ first, Text.isBlank c = false := by
    intro c member
    rcases members c member with rfl | rfl | rfl <;> rfl
  have inside : ∀ c ∈ first, Text.isLineEnd c = false := by
    intro c member
    rcases members c member with rfl | rfl | rfl <;> rfl
  have split : Text.lines (ofSevens count) = [] ++ .ofList first :: ["WRITE a", "HALT"] := by
    rw [Text.lines, ofSevens, String.toList_ofList,
      show "\nWRITE a\nHALT".toList = '\n' :: "WRITE a\nHALT".toList from rfl,
      Text.lineChars_append_newline inside]
    rfl
  have digits : Decimal.isDigits (List.replicate count '7') = true :=
    Decimal.isDigits_replicate rfl (Nat.zero_lt_of_lt long)
  refine ⟨[], _, _, ['a'], List.replicate count '7', split, by simp, ?_, ?_, long⟩
  · constructor
    · rw [Text.trim_eq_self (by simpa using blank), String.toList_ofList]
      apply List.filter_eq_self.mpr
      intro c member
      rw [blank c member]
      rfl
    · rfl
    · rw [Decimal.isLiteralShape, Decimal.splitSign_of_isDigits digits]
      exact digits
  · rw [Decimal.numeralLength, Decimal.splitSign_of_isDigits digits]
    exact List.length_replicate

end Source

/-- A literal of 4301 digits is not accepted, and what is reported is no error of
the source. -/
theorem Compilation.ofSource_ofSevens_ne :
    ¬ ((∃ compilation, ofSource {} "<input>" (Source.ofSevens 4301) = .ok compilation) ∨
      ∃ error, ofSource {} "<input>" (Source.ofSevens 4301) = .error (.source error)) := by
  rw [ofSource_eq_limit_iff.mpr ⟨4301, Source.hasLongLiteral_ofSevens (by decide), rfl⟩]
  simp

end DecimalMachine
