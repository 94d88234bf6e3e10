import DecimalMachine.Processor.Run
import DecimalMachine.Proofs.Decimal.Canonical
import DecimalMachine.Proofs.Outcomes

/-!
# Effects of a cycle

A cycle ends in one of three ways.  The word that it fetches is no instruction,
or no operation has its code, or its operation is executed.  An operation that
succeeds changes the program counter, the accumulator, one cell or the outputs,
and one that fails or halts changes nothing.
-/

namespace DecimalMachine.Processor

variable {σ : Type} {environment : Environment σ} {processor next : Processor} {state rest : σ}
  {opcode : Opcode} {operand : Nat}

/-! ## Operations -/

theorem settle_eq_failed {outcome : Except ExecutionError Processor} {reason : ExecutionError}
    (failed : (processor.settle outcome state).1 = .failed reason) : outcome = .error reason := by
  cases outcome with
  | ok next => cases failed
  | error other =>
      cases failed
      rfl

/-- An operation that fails leaves the processor as it was. -/
theorem execute_of_failed {reason : ExecutionError}
    (failed : (processor.execute environment opcode operand state).1 = .failed reason) :
    (processor.execute environment opcode operand state).2.1 = processor := by
  have settled : ∀ outcome : Except ExecutionError Processor,
      (processor.settle outcome state).1 = .failed reason →
        (processor.settle outcome state).2.1 = processor := by
    intro outcome failed
    rw [settle_eq_failed failed]
    rfl
  have written : ∀ value rest, (processor.writeCell environment operand value rest).1 =
      .failed reason → (processor.writeCell environment operand value rest).2.1 = processor := by
    intro value rest failed
    rw [writeCell] at failed ⊢
    split at failed
    · rfl
    · cases failed
  cases opcode with
  | read =>
      rw [execute, readInput] at failed ⊢
      rcases asked : environment.input operand state with ⟨answer, rest⟩
      cases read : processor.inputValue operand answer with
      | ok value =>
          simp only [asked, read] at failed ⊢
          exact written value rest failed
      | error reason => simp only [read]
  | write =>
      rw [execute, writeOutput] at failed ⊢
      cases here : processor.cell operand with
      | ok text =>
          simp only [here] at failed
          cases failed
      | error reason => rfl
  | store => exact written _ state failed
  | halt => cases failed
  | load | add | subtract | branch | branchNeg | branchZero => exact settled _ failed

/-- Only a halt ends the program. -/
theorem opcode_of_execute_halted
    (executed : processor.execute environment opcode operand state = (.halted, next, rest)) :
    opcode = .halt := by
  cases opcode with
  | halt => rfl
  | read =>
      simp only [execute, readInput, writeCell] at executed
      split at executed
      · cases executed
      · split at executed <;> cases executed
  | write =>
      simp only [execute, writeOutput] at executed
      split at executed <;> cases executed
  | store =>
      simp only [execute, writeCell] at executed
      split at executed <;> cases executed
  | load | add | subtract | branchNeg | branchZero =>
      simp only [execute, settle] at executed
      split at executed <;> cases executed
  | branch =>
      simp only [execute, settle] at executed
      cases executed

/-- A halt changes nothing. -/
theorem eq_of_execute_halted
    (executed : processor.execute environment opcode operand state = (.halted, next, rest)) :
    next = processor := by
  cases opcode_of_execute_halted executed
  cases executed
  rfl

/-- What an operation with an operand may change. -/
structure Advances (operand : Nat) (processor next : Processor) : Prop where
  size : next.memory.size = processor.memory.size
  outputs : processor.outputs <+: next.outputs
  pc : next.registers.pc = processor.registers.pc + 1 ∨ next.registers.pc = operand
  registers : next.registers =
    { processor.registers with
      pc := next.registers.pc, accumulator := next.registers.accumulator }

theorem advances_advance (processor : Processor) (text : String) :
    Advances operand processor (processor.accumulate text).advance :=
  ⟨rfl, List.prefix_refl _, .inl rfl, rfl⟩

theorem advances_writeCell {value : String} {refused : Option (Nat × String)}
    (written : processor.writeCell environment operand value state =
      (.advanced refused, next, rest)) : Advances operand processor next := by
  unfold writeCell at written
  split at written
  · cases written
  · next memory stored =>
      cases written
      exact ⟨Memory.size_of_write stored, List.prefix_refl _, .inl rfl, rfl⟩

theorem advances_settle {outcome : Except ExecutionError Processor}
    {refused : Option (Nat × String)} (advances : ∀ next, outcome = .ok next →
      Advances operand processor next)
    (settled : processor.settle outcome state = (.advanced refused, next, rest)) :
    Advances operand processor next := by
  cases outcome with
  | error error => cases settled
  | ok value =>
      cases settled
      exact advances _ rfl

theorem advances_combine {f : Int → Int → Int} (combined : processor.combine operand f = .ok next) :
    Advances operand processor next := by
  simp only [combine, bind_eq_ok_iff] at combined
  rcases combined with ⟨_, _, _, _, text, _, combined⟩
  cases combined
  exact advances_advance processor text

theorem advances_branchIf {test : Int → Bool}
    (branched : processor.branchIf operand test = .ok next) : Advances operand processor next := by
  simp only [branchIf, bind_eq_ok_iff] at branched
  rcases branched with ⟨value, _, branched⟩
  cases branched
  split
  · exact ⟨rfl, List.prefix_refl _, .inr rfl, rfl⟩
  · exact ⟨rfl, List.prefix_refl _, .inl rfl, rfl⟩

/-- An operation that succeeds advances the processor. -/
theorem advances_of_execute {refused : Option (Nat × String)}
    (executed : processor.execute environment opcode operand state =
      (.advanced refused, next, rest)) : Advances operand processor next := by
  cases opcode with
  | read =>
      simp only [execute, readInput] at executed
      split at executed
      · cases executed
      · exact advances_writeCell executed
  | write =>
      simp only [execute, writeOutput] at executed
      split at executed
      · cases executed
      · cases executed
        exact ⟨rfl, List.prefix_append _ _, .inl rfl, rfl⟩
  | store => exact advances_writeCell executed
  | load =>
      refine advances_settle ?_ executed
      intro next loaded
      rcases map_eq_ok_iff.mp loaded with ⟨text, _, rfl⟩
      exact advances_advance processor text
  | add | subtract => exact advances_settle (fun _ => advances_combine) executed
  | branchNeg | branchZero => exact advances_settle (fun _ => advances_branchIf) executed
  | branch =>
      cases executed
      exact ⟨rfl, List.prefix_refl _, .inr rfl, rfl⟩
  | halt => cases executed

/-! ## Decoded words -/

/-- An operand that is decoded is a natural number. -/
theorem operand_of_ofText? {text : String} {instruction : Instruction}
    (decoded : Instruction.ofText? text = some instruction) :
    instruction.operand = (instruction.operand.toNat : Int) := by
  unfold Instruction.ofText? Instruction.ofChars? at decoded
  split at decoded
  · split at decoded
    · cases decoded
      rfl
    · cases decoded
  · cases decoded

/-- Two digits are a number below one hundred. -/
theorem operand_lt_of_ofText? {text : String} {instruction : Instruction}
    (decoded : Instruction.ofText? text = some instruction) :
    instruction.operand.toNat < Instruction.addressSpace := by
  unfold Instruction.ofText? Instruction.ofChars? at decoded
  split at decoded
  · next a b c d _ =>
      split at decoded
      · next digits =>
          cases decoded
          have each : ∀ x ∈ [c, d], x.isDigit = true := by
            intro x member
            apply List.all_eq_true.mp digits x
            exact List.mem_cons_of_mem a (List.mem_cons_of_mem b member)
          have short := Decimal.length_digits_ofDigits_le (List.cons_ne_nil c [d]) each
          exact (Nat.length_toDigits_le_iff (by decide) (Nat.zero_lt_succ _)).mp short
      · cases decoded
  · cases decoded

/-! ## Cycles -/

/-- The processor at its instruction, with the operation and the operand
decoded. -/
def atInstruction (processor : Processor) (opcode : Opcode) (operand : Nat) : Processor :=
  (processor.fetched processor.fetch).decoded opcode operand

theorem cycle_of_ofText?
    (decodes : Instruction.ofText? processor.fetch = some ⟨opcode.code, operand⟩) :
    processor.cycle environment state =
      (processor.atInstruction opcode operand).execute environment opcode operand
        (environment.trace (processor.atInstruction opcode operand).registers state) := by
  simp [cycle, decodes, Instruction.operation?, atInstruction]

theorem cycle_of_malformed (word : Instruction.ofText? processor.fetch = none) :
    processor.cycle environment state =
      (.failed (.fault ⟨.malformedWord, processor.registers.pc, processor.fetch⟩), processor,
        state) := by
  simp only [cycle, word]

theorem cycle_of_unknown {instruction : Instruction}
    (word : Instruction.ofText? processor.fetch = some instruction)
    (code : instruction.operation? = none) :
    processor.cycle environment state =
      (.failed (.fault ⟨.unknownOpcode, processor.registers.pc, processor.fetch⟩),
        processor.fetched processor.fetch, state) := by
  simp only [cycle, word, code]
  rfl

/-- How a cycle ends. -/
inductive Cycled (environment : Environment σ) (processor : Processor) (state : σ) :
    Progress × Processor × σ → Prop where
  | malformed (word : Instruction.ofText? processor.fetch = none) :
      Cycled environment processor state
        (.failed (.fault ⟨.malformedWord, processor.registers.pc, processor.fetch⟩), processor,
          state)
  | unknown {instruction : Instruction}
      (word : Instruction.ofText? processor.fetch = some instruction)
      (code : instruction.operation? = none) :
      Cycled environment processor state
        (.failed (.fault ⟨.unknownOpcode, processor.registers.pc, processor.fetch⟩),
          processor.fetched processor.fetch, state)
  | executed {opcode : Opcode} {operand : Nat} {outcome : Progress × Processor × σ}
      (word : Instruction.ofText? processor.fetch = some ⟨opcode.code, operand⟩)
      (small : operand < Instruction.addressSpace)
      (execute : (processor.atInstruction opcode operand).execute environment opcode operand
        (environment.trace (processor.atInstruction opcode operand).registers state) = outcome) :
      Cycled environment processor state outcome

theorem cycled (environment : Environment σ) (processor : Processor) (state : σ) :
    Cycled environment processor state (processor.cycle environment state) := by
  cases word : Instruction.ofText? processor.fetch with
  | none =>
      rw [cycle_of_malformed word]
      exact .malformed word
  | some instruction =>
      cases known : instruction.operation? with
      | none =>
          rw [cycle_of_unknown word known]
          exact .unknown word known
      | some opcode =>
          have code := Opcode.ofCode?_eq_some_iff.mp known
          have whole : instruction = ⟨opcode.code, (instruction.operand.toNat : Int)⟩ := by
            rw [← code, ← operand_of_ofText? word]
          have decodes := word.trans (congrArg some whole)
          rw [cycle_of_ofText? decodes]
          exact .executed decodes (operand_lt_of_ofText? word) rfl

end DecimalMachine.Processor
