import DecimalMachine.Proofs.Processor.Representation
import DecimalMachine.Proofs.Semantics.Code

/-!
# Cycles of a processor that holds a program

A cycle of a processor at a point of a program follows the step of the code: it
leads to a processor at the next point, or halts or fails where the step ends.
-/

namespace DecimalMachine

/-- The environment that answers from a list of inputs and never stops
execution. -/
def Environment.ofInputs : Environment (List String) where
  input _ inputs := (inputs.head?, inputs.tail)
  output _ _ inputs := inputs
  trace _ inputs := inputs
  allows _ _ inputs := (true, inputs)
  accepts _ _ inputs := (true, inputs)

namespace Semantics

open Program Processor

/-- The end of a program that a failed instruction is. -/
def stopOfError : ExecutionError → Stop
  | .limit error => .tooLong error
  | .fault raised =>
      match raised.cause with
      | .noInput _ => .noInput
      | .inputNotInteger text => .notInteger text
      | _ => .meaningless

/-- What a cycle at a position does, when the step of the code has a result. -/
inductive Follows (code : List Emitted) (size position : Nat) :
    Progress × Processor × List String → Except (Stop × Values) Point → Prop where
  | advanced {processor : Processor} {point : Point}
      (represents : Represents code size processor point) :
      Follows code size position (.advanced none, processor, point.values.inputs) (.ok point)
  | halted {processor : Processor} {values : Values}
      (represents : Represents code size processor ⟨position, values⟩) :
      Follows code size position (.halted, processor, values.inputs) (.error (.halted, values))
  | failed {processor : Processor} {values : Values} {error : ExecutionError}
      (meaning : stopOfError error ≠ .meaningless)
      (represents : Represents code size processor ⟨position, values⟩) :
      Follows code size position (.failed error, processor, values.inputs)
        (.error (stopOfError error, values))

variable {code : List Emitted} {size : Nat} {processor : Processor} {point : Point}

/-- An input is read as the integer that it denotes, or fails as it does. -/
theorem inputValue_some (processor : Processor) (operand : Nat) (raw : String) :
    (∃ value, Values.integer raw = .ok value ∧ Decimal.Writable value ∧
      processor.inputValue operand (some raw) = .ok (Decimal.text value)) ∨
    ∃ error, Values.integer raw = .error (stopOfError error) ∧ stopOfError error ≠ .meaningless ∧
      processor.inputValue operand (some raw) = .error error := by
  by_cases literal : Decimal.isLiteral (Text.trim raw) = true
  · cases outcome : Decimal.read (Text.trim raw) with
    | ok value =>
        refine .inl ⟨value, ?_, Decimal.writable_of_read literal outcome, ?_⟩
        · simp [Values.integer, literal, outcome, Except.mapError]
        · simp [inputValue, number, literal, outcome, Except.mapError, bind, Except.bind, pure,
            Except.pure]
    | error error =>
        refine .inr ⟨.limit error, ?_, by simp [stopOfError], ?_⟩
        · simp [Values.integer, literal, outcome, Except.mapError, stopOfError]
        · simp [inputValue, number, literal, outcome, Except.mapError, bind, Except.bind]
  · refine .inr ⟨processor.fault (.inputNotInteger (Text.trim raw)), ?_, ?_, ?_⟩
    · simp [Values.integer, literal, stopOfError, fault]
    · simp [stopOfError, fault]
    · simp [inputValue, number, literal, bind, Except.bind]

section Operations

variable {name : String} (represents : Represents code size processor point)
  (fits : extent code ≤ size) (member : name ∈ slots code)
  (inside : point.position + 1 < code.length)

include represents member inside

theorem follows_writeCell {value : Int} (fits : extent code ≤ size)
    (writable : Decimal.Writable value) :
    Follows code size point.position
      (processor.writeCell .ofInputs (cellOf code name) (Decimal.text value) point.values.inputs)
      (.ok (point.next (point.values.put name value))) := by
  obtain ⟨memory, written, stored⟩ := represents.write fits member writable
  simp only [writeCell, written, Environment.ofInputs]
  exact .advanced (stored.advance inside)

/-- A read consumes an input, whether or not it is an integer. -/
theorem follows_readInput (fits : extent code ≤ size) :
    Follows code size point.position
      (processor.readInput .ofInputs (cellOf code name) point.values.inputs)
      (point.proceed (point.values.read name)) := by
  cases inputs : point.values.inputs with
  | nil =>
      have failed : Follows code size point.position
          (.failed (processor.fault (.noInput (cellOf code name))), processor,
            point.values.inputs) (.error (.noInput, point.values)) :=
        .failed (by simp [stopOfError, fault]) represents
      simpa [readInput, Environment.ofInputs, inputValue, Values.read, inputs, Point.proceed,
        Except.map] using failed
  | cons raw rest =>
      have consumed := represents.withInputs rest
      simp only [readInput, Environment.ofInputs, Values.read, inputs, List.head?_cons,
        List.tail_cons]
      rcases inputValue_some processor (cellOf code name) raw with
        ⟨value, integer, writable, read⟩ | ⟨error, integer, meaning, read⟩
      · rw [integer, read]
        exact follows_writeCell consumed member inside fits writable
      · rw [integer, read]
        exact .failed meaning consumed

theorem follows_writeOutput :
    Follows code size point.position
      (processor.writeOutput .ofInputs (cellOf code name) point.values.inputs)
      (.ok (point.next
        { point.values with
          outputs := point.values.outputs ++ [point.values.contents name] })) := by
  simp only [writeOutput, represents.cell member, Environment.ofInputs]
  exact .advanced ((represents.output _).advance inside)

/-- Arithmetic on the accumulator is limited by the length of its result. -/
theorem follows_combine (sign : Sign) (f : Int → Int → Int) (same : f = sign.apply) :
    Follows code size point.position
      (processor.settle (processor.combine (cellOf code name) f) point.values.inputs)
      (point.proceed (point.values.combine sign name)) := by
  subst same
  simp only [Processor.combine, represents.accumulatorNumber, represents.cellNumber member,
    Values.combine, bind, Except.bind, Decimal.write_eq]
  by_cases writable :
      Decimal.Writable (sign.apply point.values.accumulator (point.values.contents name))
  · rw [if_pos writable, if_pos writable]
    exact .advanced ((represents.accumulate writable).advance inside)
  · have failed : Follows code size point.position
        (.failed (.limit .result), processor, point.values.inputs)
        (.error (.tooLong .result, point.values)) :=
      .failed (by simp [stopOfError]) represents
    rw [if_neg writable, if_neg writable]
    exact failed

/-- An operation on a variable is one on its cell. -/
theorem follows_perform (fits : extent code ≤ size) {opcode : Opcode}
    (branch : opcode.isBranch = false) (halt : opcode ≠ .halt) :
    Follows code size point.position
      (processor.execute .ofInputs opcode (cellOf code name) point.values.inputs)
      (point.proceed (point.values.perform name opcode)) := by
  cases opcode with
  | read => exact follows_readInput represents member inside fits
  | write => exact follows_writeOutput represents member inside
  | load =>
      simp only [execute, represents.cell member]
      exact .advanced ((represents.accumulate (represents.writable name)).advance inside)
  | store =>
      simp only [execute, represents.accumulator]
      exact follows_writeCell represents member inside fits represents.writableAccumulator
  | add => exact follows_combine represents member inside .plus _ (by funext a b; rfl)
  | subtract => exact follows_combine represents member inside .minus _ (by funext a b; rfl)
  | branch | branchNeg | branchZero => cases branch
  | halt => exact absurd rfl halt

end Operations

section Branches

variable {target : Nat} (represents : Represents code size processor point)
  (inside : target < code.length) (more : point.position + 1 < code.length)

include represents inside more

theorem follows_branchIf (test : Int → Bool) :
    Follows code size point.position
      (processor.settle (processor.branchIf target test) point.values.inputs)
      (.ok (if test point.values.accumulator then ⟨target, point.values⟩
        else point.next point.values)) := by
  have taken : Represents code size (processor.goTo target) ⟨target, point.values⟩ :=
    represents.goTo inside
  have passed : Represents code size processor.advance (point.next point.values) :=
    represents.advance more
  simp only [branchIf, represents.accumulatorNumber, bind, Except.bind]
  cases test point.values.accumulator with
  | true => exact .advanced taken
  | false => exact .advanced passed

/-- A branch is taken or not by the number in the accumulator. -/
theorem follows_branch {opcode : Opcode} (branch : opcode.isBranch = true) :
    Follows code size point.position
      (processor.execute .ofInputs opcode target point.values.inputs)
      (.ok (if point.values.branches opcode then ⟨target, point.values⟩
        else point.next point.values)) := by
  cases opcode with
  | branch => exact .advanced (represents.goTo inside)
  | branchNeg => exact follows_branchIf represents inside more (· < 0)
  | branchZero => exact follows_branchIf represents inside more (· = 0)
  | _ => cases branch

end Branches

theorem follows_execute (executable : Executable code)
    (represents : Represents code size processor point) (fits : extent code ≤ size)
    {emitted : Emitted} (here : code[point.position]? = some emitted) :
    Follows code size point.position
      (processor.execute .ofInputs emitted.opcode (word code emitted).operand.toNat
        point.values.inputs)
      (emittedStep emitted point) := by
  have member := List.mem_of_getElem? here
  have operandFits := executable.fits emitted member
  obtain ⟨opcode, operand⟩ := emitted
  cases operand with
  | absent =>
      cases (show opcode = .halt from operandFits)
      exact .halted represents
  | target index =>
      have more := executable.succ_lt here (by simp)
      exact follows_branch represents operandFits.2 more operandFits.1
  | «variable» name =>
      have more := executable.succ_lt here (by simp)
      exact follows_perform represents (mem_slots_of_accessed member rfl) more fits operandFits.1
        operandFits.2

/-- A cycle of a processor at a point of a program follows the step of its
code. -/
theorem follows_cycle (executable : Executable code)
    (represents : Represents code size processor point) (fits : extent code ≤ size) :
    Follows code size point.position (processor.cycle .ofInputs point.values.inputs)
      (codeStep code point) := by
  obtain ⟨emitted, here⟩ : ∃ emitted, code[point.position]? = some emitted :=
    ⟨_, List.getElem?_eq_getElem represents.inside⟩
  have decodes := represents.ofText?_fetch executable here
  have operation : (word code emitted).operation? = some emitted.opcode :=
    Opcode.ofCode?_code emitted.opcode
  have decoded := represents.decoded processor.fetch emitted.opcode
    (word code emitted).operand.toNat
  simp only [cycle, decodes, operation, codeStep_of_getElem? here]
  exact follows_execute executable decoded fits here

end Semantics

end DecimalMachine
