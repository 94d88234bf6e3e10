import DecimalMachine.Debug.Breakpoints

/-!
# Stops at breakpoints

Breakpoints stop execution before the instruction at one of their addresses,
before an instruction at which one of their conditions is met, and after a write
into a watched cell.  An address counts before the conditions, and of the
conditions the first that is met counts.  Each stop has one event, which is
never the end of a program.
-/

namespace DecimalMachine

/-! ## Conditions -/

/-- Two numbers are related as a comparison says. -/
def Comparison.Relates : Comparison → Int → Int → Prop
  | .ne, a, b => a ≠ b
  | .lt, a, b => a < b
  | .le, a, b => a ≤ b
  | .eq, a, b => a = b
  | .gt, a, b => b < a
  | .ge, a, b => b ≤ a

theorem Comparison.holds_iff {comparison : Comparison} {a b : Int} :
    comparison.holds a b = true ↔ comparison.Relates a b := by
  cases comparison <;> simp [holds, Relates]

/-- The number that a register shows. The accumulator shows one if its text is a
numeral. -/
inductive RegisterName.Shows (registers : Registers) : RegisterName → Int → Prop where
  | accumulator {number : Int} (numeral : Decimal.numeral? registers.accumulator = some number) :
      Shows registers .accumulator number
  | operand : Shows registers .operand registers.operand
  | pc : Shows registers .pc registers.pc

theorem RegisterName.value?_eq_some_iff {register : RegisterName} {registers : Registers}
    {number : Int} :
    register.value? registers.readout = some number ↔ register.Shows registers number := by
  constructor
  · intro value
    cases register with
    | accumulator => exact .accumulator value
    | operand =>
        cases value
        exact .operand
    | pc =>
        cases value
        exact .pc
  · intro shows
    cases shows with
    | accumulator numeral => exact numeral
    | operand | pc => rfl

/-- A condition is met: its register shows a number, which compares with that of
the condition as it should. -/
def Condition.IsMet (condition : Condition) (registers : Registers) : Prop :=
  ∃ number, condition.register.Shows registers number ∧
    condition.comparison.Relates number condition.value

theorem Condition.holds_iff {condition : Condition} {registers : Registers} :
    condition.holds registers.readout = true ↔ condition.IsMet registers := by
  simp only [holds, IsMet, ← RegisterName.value?_eq_some_iff, ← Comparison.holds_iff]
  cases condition.register.value? registers.readout <;> simp

/-! ## Events -/

namespace Breakpoints

variable {breakpoints : Breakpoints} {registers : Registers} {word value : String} {address : Nat}
  {event other : Event}

/-- The event of a stop before an instruction with a word: that of its address,
or else that of the first condition that is met. -/
inductive StopsBefore (breakpoints : Breakpoints) (registers : Registers) (word : String) :
    Event → Prop where
  | address (set : (registers.pc : Int) ∈ breakpoints.addresses) :
      StopsBefore breakpoints registers word
        { reason := .breakpoint
          address := some registers.pc
          message := "Breakpoint at " ++ Decimal.twoDigits registers.pc ++ " (" ++ word ++ ")" }
  | condition {passed more : List Condition} {condition : Condition}
      (unset : (registers.pc : Int) ∉ breakpoints.addresses)
      (conditions : breakpoints.conditions = passed ++ condition :: more)
      (unmet : ∀ other ∈ passed, ¬other.IsMet registers) (met : condition.IsMet registers) :
      StopsBefore breakpoints registers word
        { reason := .condition
          address := some registers.pc
          message := "Condition: " ++ condition.description }

/-- The event of a stop after a value was written to an address. -/
inductive StopsAfter (breakpoints : Breakpoints) (address : Nat) (value : String) :
    Event → Prop where
  | write (watched : (address : Int) ∈ breakpoints.watched) :
      StopsAfter breakpoints address value
        { reason := .memoryWrite
          address := some address
          value := some value
          message := "Write " ++ value ++ " to " ++ Decimal.twoDigits address }

theorem stopBefore?_eq_some_iff :
    breakpoints.stopBefore? registers.readout registers.pc word = some event ↔
      breakpoints.StopsBefore registers word event := by
  unfold stopBefore? hasBreakpoint
  constructor
  · intro stops
    split at stops
    · next set =>
        cases stops
        exact .address (List.contains_iff_mem.mp set)
    · next unset =>
        rw [List.contains_iff_mem] at unset
        obtain ⟨condition, found, rfl⟩ := Option.map_eq_some_iff.mp stops
        obtain ⟨met, passed, more, conditions, unmet⟩ := List.find?_eq_some_iff_append.mp found
        refine .condition unset conditions ?_ (Condition.holds_iff.mp met)
        intro other member isMet
        simpa [Condition.holds_iff.mpr isMet] using unmet other member
  · intro stops
    cases stops with
    | address set =>
        rw [if_pos (List.contains_iff_mem.mpr set)]
        rfl
    | @condition passed more condition unset conditions unmet met =>
        have found : breakpoints.conditions.find? (·.holds registers.readout) = some condition := by
          refine List.find?_eq_some_iff_append.mpr
            ⟨Condition.holds_iff.mpr met, passed, more, conditions, ?_⟩
          intro other member
          simpa [← Condition.holds_iff] using unmet other member
        rw [if_neg (by rwa [List.contains_iff_mem]), found]
        rfl

theorem stopAfter?_eq_some_iff :
    breakpoints.stopAfter? address value = some event ↔
      breakpoints.StopsAfter address value event := by
  unfold stopAfter?
  constructor
  · intro stops
    split at stops
    · next watched =>
        cases stops
        exact .write (List.contains_iff_mem.mp watched)
    · cases stops
  · rintro ⟨watched⟩
    rw [if_pos (List.contains_iff_mem.mpr watched)]
    rfl

theorem StopsBefore.unique (stops : breakpoints.StopsBefore registers word event)
    (again : breakpoints.StopsBefore registers word other) : event = other :=
  Option.some.inj
    ((stopBefore?_eq_some_iff.mpr stops).symm.trans (stopBefore?_eq_some_iff.mpr again))

theorem StopsAfter.unique (stops : breakpoints.StopsAfter address value event)
    (again : breakpoints.StopsAfter address value other) : event = other :=
  Option.some.inj
    ((stopAfter?_eq_some_iff.mpr stops).symm.trans (stopAfter?_eq_some_iff.mpr again))

end Breakpoints

end DecimalMachine
