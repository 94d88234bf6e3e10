import DecimalMachine.Debug.Condition
import DecimalMachine.Proofs.Decimal.Numerals
import DecimalMachine.Proofs.Processor.Cycle

/-!
# Conditions on the accumulator

A condition reads the accumulator as a numeral, and the processor reads it as a
literal.  The two agree on literals, of which those that are too long meet no
condition, and on texts that are no numerals.  On every other text, such as one
with an underscore between its digits, the processor fails where a condition can
be met.
-/

namespace DecimalMachine.Processor

variable {processor : Processor}

/-- Conditions on the accumulator are met as the processor reads it: there is a
number in it for arithmetic and branches, and this number compares as the
condition asks. -/
def ConditionsAgree (processor : Processor) : Prop :=
  ∀ comparison value description,
    Condition.holds ⟨.accumulator, comparison, value, description⟩ processor.registers.readout =
        true ↔
      ∃ number, processor.accumulatorNumber = .ok number ∧ comparison.holds number value = true

/-- Conditions on the accumulator are never met. -/
def MeetsNoCondition (processor : Processor) : Prop :=
  ∀ comparison value description,
    Condition.holds ⟨.accumulator, comparison, value, description⟩ processor.registers.readout =
      false

theorem holds_accumulator_iff {comparison : Comparison} {value : Int} {description : String} :
    Condition.holds ⟨.accumulator, comparison, value, description⟩ processor.registers.readout =
        true ↔
      ∃ number, Decimal.numeral? processor.registers.accumulator = some number ∧
        comparison.holds number value = true := by
  simp only [Condition.holds, RegisterName.value?, Registers.readout]
  cases Decimal.numeral? processor.registers.accumulator <;> simp

/-- A number meets the condition to be equal to it. -/
theorem meetsNoCondition_iff : processor.MeetsNoCondition ↔
    Decimal.numeral? processor.registers.accumulator = none := by
  constructor
  · intro never
    rw [Option.eq_none_iff_forall_not_mem]
    intro number read
    have met : Condition.holds ⟨.accumulator, .eq, number, ""⟩ processor.registers.readout = true :=
      holds_accumulator_iff.mpr ⟨number, read, by simp [Comparison.holds]⟩
    rw [never] at met
    cases met
  · intro unread comparison value description
    rw [Bool.eq_false_iff, ne_eq, holds_accumulator_iff]
    rintro ⟨number, read, _⟩
    rw [unread] at read
    cases read

/-- A literal has the same number for the processor and for conditions. -/
theorem accumulatorNumber_eq_ok_iff
    (literal : Decimal.isLiteral processor.registers.accumulator = true) {number : Int} :
    processor.accumulatorNumber = .ok number ↔
      Decimal.numeral? processor.registers.accumulator = some number := by
  simp only [accumulatorNumber, Processor.number, if_pos literal,
    Decimal.numeral?_of_isLiteral literal]
  cases Decimal.read processor.registers.accumulator <;> simp [Except.mapError, Except.toOption]

theorem accumulatorNumber_of_not_isLiteral
    (other : Decimal.isLiteral processor.registers.accumulator = false) :
    processor.accumulatorNumber =
      .error (processor.fault (.accumulatorNotInteger processor.registers.accumulator)) := by
  simp [accumulatorNumber, Processor.number, other]

theorem conditionsAgree_of_isLiteral
    (literal : Decimal.isLiteral processor.registers.accumulator = true) :
    processor.ConditionsAgree := by
  intro comparison value description
  simp only [holds_accumulator_iff, accumulatorNumber_eq_ok_iff literal]

/-- Where the processor would fail, agreement is that no condition is met. -/
theorem conditionsAgree_iff_meetsNoCondition
    (other : Decimal.isLiteral processor.registers.accumulator = false) :
    processor.ConditionsAgree ↔ processor.MeetsNoCondition := by
  have unread : ∀ number, processor.accumulatorNumber ≠ .ok number := by
    intro number
    rw [accumulatorNumber_of_not_isLiteral other]
    rintro ⟨⟩
  simp only [ConditionsAgree, MeetsNoCondition, unread, false_and, exists_false, iff_false,
    Bool.not_eq_true]

/-- Conditions on the accumulator are met as the processor reads it if and only if
it is a literal or no numeral, and in particular if it is written plainly. -/
theorem conditionsAgree_iff (processor : Processor) :
    (processor.ConditionsAgree ↔
      Decimal.isLiteral processor.registers.accumulator = true ∨
        Decimal.numeral? processor.registers.accumulator = none) ∧
    (Decimal.isLiteral processor.registers.accumulator = false →
      (processor.ConditionsAgree ↔ processor.MeetsNoCondition)) ∧
    (Decimal.IsPlain processor.registers.accumulator → processor.ConditionsAgree) := by
  have agree : processor.ConditionsAgree ↔
      Decimal.isLiteral processor.registers.accumulator = true ∨
        Decimal.numeral? processor.registers.accumulator = none := by
    cases literal : Decimal.isLiteral processor.registers.accumulator with
    | true => simp [conditionsAgree_of_isLiteral literal]
    | false => simp [conditionsAgree_iff_meetsNoCondition literal, meetsNoCondition_iff]
  refine ⟨agree, conditionsAgree_iff_meetsNoCondition, ?_⟩
  intro plain
  rw [agree]
  cases read : Decimal.numeral? processor.registers.accumulator with
  | none => exact .inr rfl
  | some number => exact .inl (Decimal.isLiteral_of_numeral? plain read)

/-- A processor with a signed number in its accumulator, and one with a text that
is no number. -/
theorem conditionsAgree_iff_plain :
    ((ofMemory (.ofSize 1)).accumulate "-07").ConditionsAgree ∧
      ((ofMemory (.ofSize 1)).accumulate "junk").MeetsNoCondition := by
  have junk := conditionsAgree_iff ((ofMemory (.ofSize 1)).accumulate "junk")
  exact ⟨(conditionsAgree_iff _).2.2 (by decide), (junk.2.1 (by decide)).mp (junk.2.2 (by decide))⟩

/-- A word with an underscore between its digits is loaded into the accumulator.
The processor reads no number there, and a condition is met. -/
theorem not_conditionsAgree_underscore :
    ∃ loaded processor : Processor,
      (ofMemory (.ofSize 3)).load ["2002", "4300", "1_0"] = .ok loaded ∧
      processor = (loaded.step .ofInputs []).2.1 ∧
      processor.accumulatorNumber =
        .error (.fault ⟨.accumulatorNotInteger "1_0", 1, "2002"⟩) ∧
      Condition.holds ⟨.accumulator, .eq, 10, ""⟩ processor.registers.readout = true ∧
      ¬ processor.ConditionsAgree ∧ ¬ processor.MeetsNoCondition := by
  have loaded : (ofMemory (.ofSize 3)).load ["2002", "4300", "1_0"] =
      .ok (ofMemory ⟨#["2002", "4300", "1_0"]⟩) := by
    decide +kernel
  have failed : ((ofMemory ⟨#["2002", "4300", "1_0"]⟩).step .ofInputs []).2.1.accumulatorNumber =
      .error (.fault ⟨.accumulatorNotInteger "1_0", 1, "2002"⟩) := by
    decide +kernel
  have met : Condition.holds ⟨.accumulator, .eq, 10, ""⟩
      ((ofMemory ⟨#["2002", "4300", "1_0"]⟩).step .ofInputs []).2.1.registers.readout = true := by
    decide +kernel
  refine ⟨_, _, loaded, rfl, failed, met, ?_, ?_⟩
  · intro agree
    rcases (agree .eq 10 "").mp met with ⟨number, read, _⟩
    rw [failed] at read
    cases read
  · intro never
    rw [never] at met
    cases met

end DecimalMachine.Processor
