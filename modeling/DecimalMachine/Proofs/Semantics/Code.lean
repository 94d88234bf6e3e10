import DecimalMachine.Program.Emission
import DecimalMachine.Proofs.Semantics.Iteration
import DecimalMachine.Proofs.Semantics.Values

/-!
# Execution of emitted code

Emitted code is executed by the names of its variables, before any of them has
an address.  It stands between source lines, of which each emits a piece of
code, and the words of the machine, of which each is one emitted instruction.
-/

namespace DecimalMachine.Semantics

open Program

/-- Execute an emitted instruction. -/
def emittedStep (emitted : Emitted) (point : Point) : Except (Stop × Values) Point :=
  match emitted.operand with
  | .absent => .error (.halted, point.values)
  | .target index =>
      .ok (if point.values.branches emitted.opcode then ⟨index, point.values⟩
        else point.next point.values)
  | .variable name => point.proceed (point.values.perform name emitted.opcode)

/-- Execute the instruction at a point. -/
def codeStep (code : List Emitted) (point : Point) : Except (Stop × Values) Point :=
  match code[point.position]? with
  | none => .error (.meaningless, point.values)
  | some emitted => emittedStep emitted point

theorem emittedStep_access (opcode : Opcode) (name : String) (point : Point) :
    emittedStep (.access opcode name) point = point.proceed (point.values.perform name opcode) :=
  rfl

theorem emittedStep_halt (point : Point) :
    emittedStep .halt point = .error (.halted, point.values) :=
  rfl

theorem codeStep_of_getElem? {code : List Emitted} {point : Point} {emitted : Emitted}
    (here : code[point.position]? = some emitted) :
    codeStep code point = emittedStep emitted point := by
  simp only [codeStep, here]

/-! ## Inputs and outputs -/

/-- Outputs are only added and inputs are only consumed. -/
structure Continues (first second : Values) : Prop where
  outputs : first.outputs <+: second.outputs
  inputs : second.inputs <:+ first.inputs

theorem Continues.refl (values : Values) : Continues values values :=
  ⟨List.prefix_rfl, List.suffix_rfl⟩

theorem Continues.trans {first second third : Values} (one : Continues first second)
    (other : Continues second third) : Continues first third :=
  ⟨one.outputs.trans other.outputs, other.inputs.trans one.inputs⟩

/-- The values of a point or of an end. -/
def valuesOf : Except (Stop × Values) Point → Values
  | .ok point => point.values
  | .error ending => ending.2

theorem continues_read (point : Point) (name : String) :
    Continues point.values (valuesOf (point.proceed (point.values.read name))) := by
  cases inputs : point.values.inputs with
  | nil =>
      simp only [Values.read, inputs]
      exact .refl _
  | cons input rest =>
      have consumed : rest <:+ point.values.inputs := by
        rw [inputs]
        exact List.suffix_cons input rest
      simp only [Values.read, inputs]
      cases Values.integer input with
      | ok value => exact ⟨List.prefix_rfl, consumed⟩
      | error stop => exact ⟨List.prefix_rfl, consumed⟩

theorem continues_perform (point : Point) (name : String) (opcode : Opcode) :
    Continues point.values (valuesOf (point.proceed (point.values.perform name opcode))) := by
  have combine : ∀ sign,
      Continues point.values (valuesOf (point.proceed (point.values.combine sign name))) := by
    intro sign
    unfold Values.combine
    simp only
    split
    · exact ⟨List.prefix_rfl, List.suffix_rfl⟩
    · exact .refl _
  cases opcode with
  | read => exact continues_read point name
  | write => exact ⟨List.prefix_append _ _, List.suffix_rfl⟩
  | add => exact combine .plus
  | subtract => exact combine .minus
  | load | store => exact ⟨List.prefix_rfl, List.suffix_rfl⟩
  | branch | branchNeg | branchZero | halt => exact .refl _

theorem continues_codeStep (code : List Emitted) (point : Point) :
    Continues point.values (valuesOf (codeStep code point)) := by
  unfold codeStep
  split
  · exact .refl _
  · next emitted here =>
      unfold emittedStep
      split
      · exact .refl _
      · split
        · exact .refl _
        · exact .refl _
      · exact continues_perform point _ _

/-- What was written stays written and what was read stays read. -/
theorem continues_after (code : List Emitted) (n : Nat) (point : Point) :
    Continues point.values (valuesOf (after (codeStep code) n point)) := by
  induction n generalizing point with
  | zero => exact .refl _
  | succ n ih =>
      have first := continues_codeStep code point
      cases taken : codeStep code point with
      | error ending =>
          rw [after_succ_of_error taken]
          rwa [taken] at first
      | ok next =>
          rw [after_succ_of_ok taken]
          rw [taken] at first
          exact first.trans (ih next)

/-! ## Code without branches -/

/-- Execute operations on variables one after the other. -/
def performAll (values : Values) : List Emitted → Except (Stop × Values) Values
  | [] => .ok values
  | emitted :: rest =>
      match emitted.operand with
      | .variable name =>
          match values.perform name emitted.opcode with
          | .ok next => performAll next rest
          | .error ending => .error ending
      | _ => .error (.meaningless, values)

theorem performAll_access_cons (values : Values) (opcode : Opcode) (name : String)
    (rest : List Emitted) :
    performAll values (.access opcode name :: rest) =
      match values.perform name opcode with
      | .ok next => performAll next rest
      | .error ending => .error ending :=
  rfl

/-- Operations on variables that stand somewhere in a program are executed one
after the other. -/
theorem after_length {middle : List Emitted}
    (accesses : ∀ emitted ∈ middle, ∃ opcode name, emitted = .access opcode name)
    (above below : List Emitted) (values : Values) :
    after (codeStep (above ++ middle ++ below)) middle.length ⟨above.length, values⟩ =
      (performAll values middle).map fun next => ⟨above.length + middle.length, next⟩ := by
  induction middle generalizing above values with
  | nil => rfl
  | cons emitted rest ih =>
      obtain ⟨opcode, name, rfl⟩ := accesses _ List.mem_cons_self
      have tail := ih (fun other member => accesses other (List.mem_cons_of_mem _ member))
        (above ++ [.access opcode name])
      have here : (above ++ .access opcode name :: rest ++ below)[above.length]? =
          some (.access opcode name) := by
        simp
      have step : codeStep (above ++ .access opcode name :: rest ++ below)
          ⟨above.length, values⟩ = emittedStep (.access opcode name) ⟨above.length, values⟩ :=
        codeStep_of_getElem? here
      rw [performAll_access_cons, List.length_cons]
      cases performed : values.perform name opcode with
      | error ending =>
          rw [emittedStep_access, performed] at step
          exact after_succ_of_error step rest.length
      | ok next =>
          rw [emittedStep_access, performed] at step
          rw [after_succ_of_ok step]
          simpa [Point.next, Nat.add_assoc, Nat.add_comm 1] using tail next

end DecimalMachine.Semantics
