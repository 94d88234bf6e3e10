import DecimalMachine.Proofs.Processor.Cycle
import DecimalMachine.Proofs.Processor.Effects
import DecimalMachine.Proofs.Processor.History

/-!
# Instructions that fail

An instruction that fails leaves the processor where it is.  What it has decoded
stays in the registers and the cycle is counted, but the program counter, the
accumulator, the memory and the outputs are those from before, and the program
has not ended.  The same instruction is therefore executed by the next step, and
unless it reads an input it fails again.
-/

namespace DecimalMachine.Processor

variable {σ : Type} {environment : Environment σ} {processor next : Processor} {state rest : σ}
  {opcode : Opcode} {operand : Nat} {error : ExecutionError}

/-! ## Faults of operations -/

/-- The errors of an operation: faults that tell of the instruction, and numbers
that are too long. -/
inductive FailsWith (processor : Processor) : ExecutionError → Prop where
  | fault {cause : FaultCause} (word : cause ≠ .malformedWord) (code : cause ≠ .unknownOpcode) :
      FailsWith processor (processor.fault cause)
  | limit (error : Decimal.LimitError) : FailsWith processor (.limit error)

theorem failsWith_of_cell (failed : processor.cell operand = .error error) :
    FailsWith processor error := by
  unfold cell at failed
  cases read : processor.memory.read operand with
  | ok text =>
      rw [read] at failed
      cases failed
  | error reason =>
      rw [read] at failed
      cases failed
      exact .fault (by simp) (by simp)

theorem failsWith_of_number {text : String} {cause : FaultCause} (word : cause ≠ .malformedWord)
    (code : cause ≠ .unknownOpcode) (failed : processor.number text cause = .error error) :
    FailsWith processor error := by
  unfold number at failed
  split at failed
  · cases read : Decimal.read text with
    | ok value =>
        rw [read] at failed
        cases failed
    | error reason =>
        rw [read] at failed
        cases failed
        exact .limit reason
  · cases failed
    exact .fault word code

theorem failsWith_of_accumulatorNumber (failed : processor.accumulatorNumber = .error error) :
    FailsWith processor error :=
  failsWith_of_number (by simp) (by simp) failed

theorem failsWith_of_cellNumber (failed : processor.cellNumber operand = .error error) :
    FailsWith processor error := by
  rcases bind_eq_error_iff.mp failed with failed | ⟨text, _, failed⟩
  · exact failsWith_of_cell failed
  · exact failsWith_of_number (by simp) (by simp) failed

theorem failsWith_of_combine {f : Int → Int → Int}
    (failed : processor.combine operand f = .error error) : FailsWith processor error := by
  rcases bind_eq_error_iff.mp failed with failed | ⟨left, _, failed⟩
  · exact failsWith_of_accumulatorNumber failed
  rcases bind_eq_error_iff.mp failed with failed | ⟨right, _, failed⟩
  · exact failsWith_of_cellNumber failed
  rcases bind_eq_error_iff.mp failed with failed | ⟨text, _, ⟨⟩⟩
  cases written : Decimal.write (f left right) with
  | ok text =>
      rw [written] at failed
      cases failed
  | error reason =>
      rw [written] at failed
      cases failed
      exact .limit reason

theorem failsWith_of_branchIf {test : Int → Bool}
    (failed : processor.branchIf operand test = .error error) : FailsWith processor error := by
  rcases bind_eq_error_iff.mp failed with failed | ⟨value, _, ⟨⟩⟩
  exact failsWith_of_accumulatorNumber failed

theorem failsWith_of_inputValue {answer : Option String}
    (failed : processor.inputValue operand answer = .error error) :
    FailsWith processor error := by
  cases answer with
  | none =>
      cases failed
      exact .fault (by simp) (by simp)
  | some raw =>
      rcases bind_eq_error_iff.mp failed with failed | ⟨value, _, ⟨⟩⟩
      exact failsWith_of_number (by simp) (by simp) failed

theorem failsWith_of_writeCell {value : String}
    (failed : (processor.writeCell environment operand value state).1 = .failed error) :
    FailsWith processor error := by
  unfold writeCell at failed
  split at failed
  · cases failed
    exact .fault (by simp) (by simp)
  · cases failed

/-- An operation that fails has an error of its own. -/
theorem failsWith_of_execute
    (failed : (processor.execute environment opcode operand state).1 = .failed error) :
    FailsWith processor error := by
  cases opcode with
  | read =>
      simp only [execute, readInput] at failed
      split at failed
      · next reason value =>
          cases failed
          exact failsWith_of_inputValue value
      · exact failsWith_of_writeCell failed
  | write =>
      simp only [execute, writeOutput] at failed
      split at failed
      · next reason here =>
          cases failed
          exact failsWith_of_cell here
      · cases failed
  | load =>
      have failed := settle_eq_failed failed
      cases here : processor.cell operand with
      | ok text =>
          rw [here] at failed
          cases failed
      | error reason =>
          rw [here] at failed
          cases failed
          exact failsWith_of_cell here
  | store => exact failsWith_of_writeCell failed
  | add | subtract => exact failsWith_of_combine (settle_eq_failed failed)
  | branchNeg | branchZero => exact failsWith_of_branchIf (settle_eq_failed failed)
  | branch | halt => cases failed

/-- An operation other than a read fails in every environment if it does in
one. -/
theorem failed_of_execute {τ : Type} (other : Environment τ) (told : τ) (reads : opcode ≠ .read)
    (failed : (processor.execute environment opcode operand state).1 = .failed error) :
    (processor.execute other opcode operand told).1 = .failed error := by
  have settled : ∀ outcome : Except ExecutionError Processor,
      (processor.settle outcome state).1 = .failed error →
        (processor.settle outcome told).1 = .failed error := by
    intro outcome failed
    rw [settle_eq_failed failed]
    rfl
  cases opcode with
  | read => exact absurd rfl reads
  | write =>
      simp only [execute, writeOutput] at failed ⊢
      split at failed
      · exact failed
      · cases failed
  | store =>
      simp only [execute, writeCell] at failed ⊢
      split at failed
      · exact failed
      · cases failed
  | halt => cases failed
  | load | add | subtract | branch | branchNeg | branchZero => exact settled _ failed

/-- What the environment of an operation that fails was asked for: nothing,
unless it is a read. -/
theorem state_of_execute
    (failed : processor.execute environment opcode operand state = (.failed error, next, rest)) :
    rest = if opcode = .read then (environment.input operand state).2 else state := by
  cases opcode with
  | read =>
      simp only [execute, readInput] at failed
      rw [if_pos rfl]
      split at failed
      · cases failed
        rfl
      · unfold writeCell at failed
        split at failed
        · cases failed
          rfl
        · cases failed
  | write =>
      simp only [execute, writeOutput] at failed
      split at failed <;> cases failed
      rfl
  | store =>
      simp only [execute, writeCell] at failed
      split at failed <;> cases failed
      rfl
  | load | add | subtract | branchNeg | branchZero =>
      simp only [execute, settle] at failed
      split at failed <;> cases failed
      rfl
  | branch | halt => cases failed

/-- What was decoded stays decoded. -/
theorem decoded_execute (environment : Environment σ) (processor : Processor) (opcode : Opcode)
    (operand : Nat) (state : σ) :
    let next := (processor.execute environment opcode operand state).2.1
    next.registers.ir = processor.registers.ir ∧
      next.registers.opcode = processor.registers.opcode ∧
      next.registers.operand = processor.registers.operand := by
  rcases executed : processor.execute environment opcode operand state with ⟨progress, next, rest⟩
  cases progress with
  | advanced refused =>
      have registers := (advances_of_execute executed).registers
      refine ⟨?_, ?_, ?_⟩ <;> exact registers ▸ rfl
  | halted =>
      rw [eq_of_execute_halted executed]
      exact ⟨rfl, rfl, rfl⟩
  | failed error =>
      have same := execute_of_failed (congrArg Prod.fst executed)
      rw [executed] at same
      rw [show next = processor from same]
      exact ⟨rfl, rfl, rfl⟩

/-! ## Cycles that fail -/

/-- Whether the instruction at the program counter reads an input. -/
def ReadsInput (processor : Processor) : Prop :=
  ∃ operand : Nat, Instruction.ofText? processor.fetch = some ⟨Opcode.read.code, operand⟩

/-- What is changed by a cycle that fails, by what was wrong. -/
inductive Changes (environment : Environment σ) (before : Processor) (asked : σ) :
    ExecutionError → Processor → σ → Prop where
  /-- A word that is no instruction changes nothing. -/
  | malformed {raised : Fault} (cause : raised.cause = .malformedWord) :
      Changes environment before asked (.fault raised) before asked
  /-- A word without an operation is in the instruction register. -/
  | unknown {raised : Fault} (cause : raised.cause = .unknownOpcode) :
      Changes environment before asked (.fault raised)
        { before with registers := { before.registers with ir := some raised.word } } asked
  /-- Every other instruction was decoded and counted, and a read was given its
  input. -/
  | decoded {error : ExecutionError} {opcode : Opcode} {operand : Nat} {word : String} {rest : σ}
      (cause : ∀ raised, error = .fault raised →
        raised.cause ≠ .malformedWord ∧ raised.cause ≠ .unknownOpcode)
      (fetched : before.memory.read before.registers.pc = .ok word)
      (decodes : Instruction.ofText? word = some ⟨opcode.code, operand⟩)
      (told : rest =
        let decoded := { before.registers with
          ir := some word
          opcode := some opcode
          operand := operand
          cycles := before.registers.cycles + 1 }
        if opcode = .read then (environment.input operand (environment.trace decoded asked)).2
        else environment.trace decoded asked) :
      Changes environment before asked error
        { before with registers := { before.registers with
          ir := some word
          opcode := some opcode
          operand := operand
          cycles := before.registers.cycles + 1 } } rest

/-- An instruction that fails is not executed by half. -/
structure Atomic (environment : Environment σ) (before : Processor) (asked : σ)
    (error : ExecutionError) (next : Processor) (rest : σ) : Prop where
  memory : next.memory = before.memory
  pc : next.registers.pc = before.registers.pc
  accumulator : next.registers.accumulator = before.registers.accumulator
  outputs : next.outputs = before.outputs
  halted : next.halted = before.halted
  final : next.final = none
  changes : Changes environment before asked error next rest
  /-- A fault tells of the instruction at the program counter. -/
  located : ∀ raised, error = .fault raised →
    raised.address = before.registers.pc ∧
      before.memory.read before.registers.pc = .ok raised.word
  /-- The next step executes the same word again. -/
  again : ∀ {τ : Type} (other : Environment τ) (told : τ),
    (next.step other told).2.1.registers.ir = next.registers.ir ∧
      (next.step other told).2.1.registers.opcode = next.registers.opcode ∧
      (next.step other told).2.1.registers.operand = next.registers.operand
  /-- Unless it reads an input, it fails again. -/
  repeats : ¬ before.ReadsInput → ∀ {τ : Type} (other : Environment τ) (told : τ),
    ∃ after told', next.step other told = (.failed error, after, told')

theorem read_pc (inside : processor.inMemory = true) :
    processor.memory.read processor.registers.pc = .ok processor.fetch := by
  rw [Memory.read, show processor.memory.isValid _ = true from inside, if_pos rfl]
  rfl

/-- A step of a program that goes on is a cycle. -/
theorem registers_step (processor : Processor) (final : processor.final = none)
    (stoppedAt : processor.stoppedAt = none) (inside : processor.inMemory = true)
    (environment : Environment σ) (state : σ) :
    (processor.step environment state).2.1.registers =
      (processor.cycle environment state).2.1.registers := by
  rcases processor with ⟨memory, registers, outputs, _, _⟩
  cases final
  cases stoppedAt
  simp only [step, inside, if_true]
  split
  · next executed => rw [executed]
  · next executed =>
      rw [executed]
      rfl
  · next executed => rw [executed]

theorem step_of_failed (final : processor.final = none) (stoppedAt : processor.stoppedAt = none)
    (inside : processor.inMemory = true)
    (failed : processor.cycle environment state = (.failed error, next, rest)) :
    processor.step environment state = (.failed error, next, rest) := by
  rcases processor with ⟨memory, registers, outputs, _, _⟩
  cases final
  cases stoppedAt
  simp only [step, inside, if_true, failed]

/-- A word that is no instruction fails without a change. -/
theorem atomic_of_malformed (final : processor.final = none)
    (stoppedAt : processor.stoppedAt = none) (inside : processor.inMemory = true)
    (word : Instruction.ofText? processor.fetch = none) :
    Atomic environment processor state
      (.fault ⟨.malformedWord, processor.registers.pc, processor.fetch⟩) processor state where
  memory := rfl
  pc := rfl
  accumulator := rfl
  outputs := rfl
  halted := rfl
  final := final
  changes := .malformed rfl
  located := by
    rintro raised ⟨⟩
    exact ⟨rfl, read_pc inside⟩
  again := by
    intro τ other told
    rw [registers_step processor final stoppedAt inside, cycle_of_malformed word]
    exact ⟨rfl, rfl, rfl⟩
  repeats := fun _ _ _ told =>
    ⟨processor, told, step_of_failed final stoppedAt inside (cycle_of_malformed word)⟩

/-- A word without an operation is fetched, and no more. -/
theorem atomic_of_unknown (final : processor.final = none)
    (stoppedAt : processor.stoppedAt = none) (inside : processor.inMemory = true)
    {instruction : Instruction} (word : Instruction.ofText? processor.fetch = some instruction)
    (code : instruction.operation? = none) :
    Atomic environment processor state
      (.fault ⟨.unknownOpcode, processor.registers.pc, processor.fetch⟩)
      (processor.fetched processor.fetch) state where
  memory := rfl
  pc := rfl
  accumulator := rfl
  outputs := rfl
  halted := rfl
  final := final
  changes := .unknown rfl
  located := by
    rintro raised ⟨⟩
    exact ⟨rfl, read_pc inside⟩
  again := by
    intro τ other told
    have fetched : Instruction.ofText? (processor.fetched processor.fetch).fetch =
        some instruction := word
    rw [registers_step (processor.fetched processor.fetch) final stoppedAt inside,
      cycle_of_unknown fetched code]
    exact ⟨rfl, rfl, rfl⟩
  repeats := fun _ _ _ told =>
    ⟨_, told, step_of_failed final stoppedAt inside (cycle_of_unknown word code)⟩

/-- An operation that fails leaves behind what was decoded. -/
theorem atomic_of_execute (final : processor.final = none)
    (stoppedAt : processor.stoppedAt = none) (inside : processor.inMemory = true)
    (word : Instruction.ofText? processor.fetch = some ⟨opcode.code, operand⟩)
    (failed : (processor.atInstruction opcode operand).execute environment opcode operand
      (environment.trace (processor.atInstruction opcode operand).registers state) =
        (.failed error, next, rest)) :
    Atomic environment processor state error next rest := by
  have outcome := congrArg Prod.fst failed
  have same : next = processor.atInstruction opcode operand := by
    have same := execute_of_failed outcome
    rwa [failed] at same
  have told := state_of_execute failed
  have fails := failsWith_of_execute outcome
  subst same
  constructor
  case memory => rfl
  case pc => rfl
  case accumulator => rfl
  case outputs => rfl
  case halted => rfl
  case final => exact final
  case changes =>
    refine .decoded ?_ (read_pc inside) word told
    rintro raised ⟨⟩
    cases fails with
    | fault word code => exact ⟨word, code⟩
  case located =>
    rintro raised ⟨⟩
    cases fails with
    | fault word code => exact ⟨rfl, read_pc inside⟩
  case again =>
    intro τ other told
    have decodes : Instruction.ofText? (processor.atInstruction opcode operand).fetch =
        some ⟨opcode.code, operand⟩ := word
    rw [registers_step (processor.atInstruction opcode operand) final stoppedAt inside,
      cycle_of_ofText? decodes]
    exact decoded_execute other _ opcode operand _
  case repeats =>
    intro reads τ other told
    have decodes : Instruction.ofText? (processor.atInstruction opcode operand).fetch =
        some ⟨opcode.code, operand⟩ := word
    have notRead : opcode ≠ .read := by
      rintro rfl
      exact reads ⟨operand, word⟩
    -- The second attempt differs from the first one in the count alone.
    have counted : (processor.atInstruction opcode operand).atInstruction opcode operand =
        (processor.atInstruction opcode operand).withMarks processor.final processor.stoppedAt
          (processor.registers.cycles + 2) := rfl
    have again : ∀ told : τ, (((processor.atInstruction opcode operand).atInstruction opcode
        operand).execute other opcode operand told).1 = .failed error := by
      intro told
      rw [counted, execute_withMarks]
      exact failed_of_execute other told notRead outcome
    rcases executed : (processor.atInstruction opcode operand).cycle other told with
      ⟨progress, after, later⟩
    have progressEq : progress = .failed error := by
      have first := congrArg Prod.fst executed
      rw [cycle_of_ofText? decodes, again] at first
      exact first.symm
    rw [progressEq] at executed
    exact ⟨after, later, step_of_failed final stoppedAt inside executed⟩

/-- A cycle of a program that goes on fails as a whole. -/
theorem atomic_of_cycle (final : processor.final = none) (stoppedAt : processor.stoppedAt = none)
    (inside : processor.inMemory = true)
    (failed : processor.cycle environment state = (.failed error, next, rest)) :
    Atomic environment processor state error next rest := by
  have how := cycled environment processor state
  rw [failed] at how
  cases how with
  | malformed word => exact atomic_of_malformed final stoppedAt inside word
  | unknown word code => exact atomic_of_unknown final stoppedAt inside word code
  | executed word _ execute => exact atomic_of_execute final stoppedAt inside word execute

/-! ## Steps and runs that fail -/

theorem atomic_of_step
    (failed : processor.step environment state = (.failed error, next, rest)) :
    Atomic environment { processor with stoppedAt := none } state error next rest := by
  unfold step at failed
  split at failed
  · cases failed
  next final =>
  simp only at failed
  split at failed
  · next inside =>
      split at failed
      · cases failed
      · cases failed
      · next executed =>
          cases failed
          exact atomic_of_cycle final rfl inside executed
  · cases failed

/-- A run that fails does so in one cycle, which it has come to and which the
observer has allowed. -/
theorem exists_atomic_of_runFrom {fuel : Nat} {resumed : Option Nat}
    (final : processor.final = none) (stoppedAt : processor.stoppedAt = none)
    (failed : runFrom environment fuel resumed processor state = (.failed error, next, rest)) :
    ∃ executed before reached asked,
      runFrom environment executed resumed processor state = (.unfinished, before, reached) ∧
      before.permits environment (if executed = 0 then resumed else none) reached =
        (true, asked) ∧
      Atomic environment before asked error next rest := by
  induction fuel generalizing resumed processor state with
  | zero => cases failed
  | succ fuel ih =>
      rw [runFrom] at failed
      split at failed
      · next inside =>
          rcases permitted : processor.permits environment resumed state with ⟨allowed, asked⟩
          rw [permitted] at failed
          cases allowed with
          | false => cases failed
          | true =>
              simp only at failed
              rcases outcome : processor.cycle environment asked with ⟨progress, after, told⟩
              rw [outcome] at failed
              cases progress with
              | advanced refused =>
                  cases refused with
                  | some write => cases failed
                  | none =>
                      rcases going_of_cycle final stoppedAt outcome with ⟨later, unstopped⟩
                      rcases ih later unstopped failed with
                        ⟨executed, before, reached, allowed, ran, permits, atomic⟩
                      refine ⟨executed + 1, before, reached, allowed, ?_, ?_, atomic⟩
                      · rw [runFrom, if_pos inside, permitted]
                        simp only [outcome]
                        exact ran
                      · simpa using permits
              | halted => cases failed
              | failed reason =>
                  cases failed
                  exact ⟨0, processor, state, asked, rfl, permitted,
                    atomic_of_cycle final stoppedAt inside outcome⟩
      · cases failed

theorem run_of_going (final : processor.final = none) (fuel : Nat) :
    processor.run environment fuel state =
      runFrom environment fuel processor.stoppedAt { processor with stoppedAt := none } state := by
  rw [run]
  split
  · next ended =>
      rw [final] at ended
      cases ended
  · rfl

theorem exists_atomic_of_run {fuel : Nat}
    (failed : processor.run environment fuel state = (.failed error, next, rest)) :
    ∃ executed before reached asked,
      processor.run environment executed state = (.unfinished, before, reached) ∧
      before.permits environment (if executed = 0 then processor.stoppedAt else none) reached =
        (true, asked) ∧
      Atomic environment before asked error next rest := by
  cases final : processor.final with
  | some event =>
      rw [run, final] at failed
      cases failed
  | none =>
      simp only [run_of_going final] at failed ⊢
      exact exists_atomic_of_runFrom final rfl failed

/-- Faults are atomic. A step or a run that fails leaves the processor as the
cycle that failed found it, up to what was decoded, and the same instruction is
executed again by the next step. -/
theorem faults_atomic (environment : Environment σ) (processor : Processor) (state : σ) :
    (∀ error next rest, processor.step environment state = (.failed error, next, rest) →
      Atomic environment { processor with stoppedAt := none } state error next rest) ∧
    ∀ fuel error next rest, processor.run environment fuel state = (.failed error, next, rest) →
      ∃ executed before reached asked,
        processor.run environment executed state = (.unfinished, before, reached) ∧
        before.permits environment (if executed = 0 then processor.stoppedAt else none) reached =
          (true, asked) ∧
        Atomic environment before asked error next rest :=
  ⟨fun _ _ _ => atomic_of_step, fun _ _ _ _ => exists_atomic_of_run⟩

/-- The second instruction of a run adds a text, and a step is at a word without
an operation. -/
theorem faults_atomic_add :
    ∃ before reached next after : Processor,
      (ofMemory ⟨#["2002", "3003", "5", "x"]⟩).run .ofInputs 2 [] =
        (.failed (.fault ⟨.cellNotInteger 3 "x", 1, "3003"⟩), next, []) ∧
      (∃ executed rest asked,
        (ofMemory ⟨#["2002", "3003", "5", "x"]⟩).run .ofInputs executed [] =
          (.unfinished, before, rest) ∧
        Atomic .ofInputs before asked (.fault ⟨.cellNotInteger 3 "x", 1, "3003"⟩) next []) ∧
      reached = ofMemory ⟨#["9900"]⟩ ∧
      reached.step .ofInputs [] = (.failed (.fault ⟨.unknownOpcode, 0, "9900"⟩), after, []) ∧
      Atomic .ofInputs reached [] (.fault ⟨.unknownOpcode, 0, "9900"⟩) after [] := by
  have ran : (ofMemory ⟨#["2002", "3003", "5", "x"]⟩).run .ofInputs 2 [] =
      (.failed (.fault ⟨.cellNotInteger 3 "x", 1, "3003"⟩), _, []) := rfl
  have stepped : (ofMemory ⟨#["9900"]⟩).step .ofInputs [] =
      (.failed (.fault ⟨.unknownOpcode, 0, "9900"⟩), _, []) := rfl
  rcases (faults_atomic .ofInputs _ []).2 2 _ _ _ ran with
    ⟨executed, before, rest, asked, unfinished, _, atomic⟩
  exact ⟨before, _, _, _, ran, ⟨executed, rest, asked, unfinished, atomic⟩, rfl, stepped,
    (faults_atomic .ofInputs _ []).1 _ _ _ stepped⟩

end DecimalMachine.Processor
