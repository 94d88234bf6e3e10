import DecimalMachine.Proofs.Semantics.Code
import DecimalMachine.Proofs.Semantics.Lines

/-!
# Execution without eliminated expressions

An expression that is eliminated no longer changes its variable, which nothing
refers to, but it no longer changes the accumulator either, and it no longer
ends the program when its value is too long.  The executions with and without
it stay alike exactly as long as no line is disturbed by that: as long as no
eliminated value is too long, no line stores a different accumulator, computes
a number that is too long for one of them only, or leads to different lines.
-/

namespace DecimalMachine.Semantics

open Program

/-- Two executions agree on all variables that are not eliminated, on the
inputs and on the outputs. -/
structure AgreeOutside (eliminated : List String) (first second : Values) : Prop where
  contents : ∀ name, name ∉ eliminated → second.contents name = first.contents name
  inputs : second.inputs = first.inputs
  outputs : second.outputs = first.outputs

/-- Two executions are at the same place or have ended in the same way. -/
inductive Alike (eliminated : List String) :
    Except (Stop × Values) Point → Except (Stop × Values) Point → Prop where
  | ok {first second : Point} (position : second.position = first.position)
      (agree : AgreeOutside eliminated first.values second.values) :
      Alike eliminated (.ok first) (.ok second)
  | error {first second : Stop × Values} (stop : second.1 = first.1)
      (agree : AgreeOutside eliminated first.2 second.2) :
      Alike eliminated (.error first) (.error second)

/-- The line to which a branch leads. -/
def leads (lines : List Line) (opcode : Opcode) (operand : String) (point : Point) : Option Nat :=
  if point.values.branches opcode then target? lines operand else some (point.position + 1)

/-- An operation tells two accumulators apart: different ones are stored, or the
result is too long for one of them only. -/
def TellsApart (opcode : Opcode) (operand : String) (first second : Values) : Prop :=
  opcode = .store ∧ second.accumulator ≠ first.accumulator ∨
    ∃ sign, opcode = signOpcode sign ∧
      ¬(Decimal.Writable (sign.apply second.accumulator (second.contents operand)) ↔
        Decimal.Writable (sign.apply first.accumulator (first.contents operand)))

/-- A line disturbs two executions, without the eliminated expressions and with
them: an eliminated value is too long, a branch leads to different lines, or an
operation tells the accumulators apart. -/
def Disturbs (eliminated : List String) (lines : List Line) (line : Line)
    (first second : Point) : Prop :=
  match line.form with
  | .expression name term rest =>
      name ∈ eliminated ∧ ∃ error,
        Values.fold second.values.contents (second.values.contents term) rest = .error error
  | .instruction command (some operand) =>
      ∃ opcode, Opcode.ofMnemonic? command = some opcode ∧
        if opcode.isBranch then
          leads lines opcode operand second ≠ leads lines opcode operand first
        else TellsApart opcode operand first.values second.values
  | _ => False

/-- The lines that remain do not refer to what was eliminated. -/
structure Independent (eliminated : List String) (lines : List Line) : Prop where
  terms : ∀ line ∈ lines, ∀ name first rest, line.form = .expression name first rest →
    name ∉ eliminated → ∀ term ∈ Form.terms first rest, term ∉ eliminated
  operands : ∀ line ∈ lines, ∀ command operand opcode,
    line.form = .instruction command (some operand) →
      Opcode.ofMnemonic? command = some opcode → opcode.isBranch = false → operand ∉ eliminated

namespace AgreeOutside

variable {eliminated : List String} {first second : Values} {name : String}

theorem refl (eliminated : List String) (values : Values) :
    AgreeOutside eliminated values values :=
  ⟨fun _ _ => rfl, rfl, rfl⟩

/-- Agreement survives giving a variable the same value. -/
theorem put (agree : AgreeOutside eliminated first second) (name : String) (value : Int) :
    AgreeOutside eliminated (first.put name value) (second.put name value) where
  contents := by
    intro other kept
    by_cases same : other = name
    · simp [Values.put, same]
    · simpa [Values.put, same] using agree.contents other kept
  inputs := agree.inputs
  outputs := agree.outputs

theorem assign (agree : AgreeOutside eliminated first second) (name : String) (value : Int) :
    AgreeOutside eliminated (first.assign name value) (second.assign name value) :=
  { agree.put name value with }

/-- Agreement survives giving an eliminated variable a value on one side. -/
theorem assign_eliminated (agree : AgreeOutside eliminated first second)
    (dropped : name ∈ eliminated) (value : Int) :
    AgreeOutside eliminated first (second.assign name value) where
  contents := by
    intro other kept
    have different : other ≠ name := by
      rintro rfl
      exact kept dropped
    rw [Values.contents_assign_of_ne value different]
    exact agree.contents other kept
  inputs := agree.inputs
  outputs := agree.outputs

theorem accumulate (agree : AgreeOutside eliminated first second) (one other : Int) :
    AgreeOutside eliminated { first with accumulator := one }
      { second with accumulator := other } :=
  { agree with }

end AgreeOutside

section Operations

variable {eliminated : List String} {first second : Point} {operand : String}

theorem alike_next (position : second.position = first.position) {one other : Values}
    (agree : AgreeOutside eliminated one other) :
    Alike eliminated (.ok (first.next one)) (.ok (second.next other)) :=
  .ok (congrArg (· + 1) position) agree

theorem alike_ended (stop : Stop) {one other : Values}
    (agree : AgreeOutside eliminated one other) :
    Alike eliminated (.error (stop, one)) (.error (stop, other)) :=
  .error rfl agree

theorem alike_combine (sign : Sign) (position : second.position = first.position)
    (agree : AgreeOutside eliminated first.values second.values) :
    Alike eliminated (first.proceed (first.values.combine sign operand))
        (second.proceed (second.values.combine sign operand)) ↔
      (Decimal.Writable
          (sign.apply second.values.accumulator (second.values.contents operand)) ↔
        Decimal.Writable
          (sign.apply first.values.accumulator (first.values.contents operand))) := by
  unfold Values.combine
  by_cases one : Decimal.Writable
      (sign.apply first.values.accumulator (first.values.contents operand)) <;>
    by_cases other : Decimal.Writable
      (sign.apply second.values.accumulator (second.values.contents operand)) <;>
    simp only [one, other, if_true, if_false, iff_true, iff_false, not_true_eq_false]
  · exact alike_next position (agree.accumulate _ _)
  · rintro ⟨⟩
  · rintro ⟨⟩
  · exact alike_ended _ agree

theorem alike_read (position : second.position = first.position)
    (agree : AgreeOutside eliminated first.values second.values) :
    Alike eliminated (first.proceed (first.values.read operand))
      (second.proceed (second.values.read operand)) := by
  unfold Values.read
  rw [agree.inputs]
  cases first.values.inputs with
  | nil => exact alike_ended .noInput agree
  | cons input rest =>
      have consumed : AgreeOutside eliminated { first.values with inputs := rest }
          { second.values with inputs := rest } := { agree with inputs := rfl }
      cases integer : Values.integer input with
      | ok value =>
          simp only [integer]
          exact alike_next position (consumed.put operand value)
      | error stop =>
          simp only [integer]
          exact alike_ended stop consumed

theorem alike_store (kept : operand ∉ eliminated) (position : second.position = first.position)
    (agree : AgreeOutside eliminated first.values second.values) :
    Alike eliminated
        (.ok (first.next (first.values.put operand first.values.accumulator)))
        (.ok (second.next (second.values.put operand second.values.accumulator))) ↔
      second.values.accumulator = first.values.accumulator := by
  constructor
  · intro alike
    cases alike with
    | ok _ stored => simpa [Point.next, Values.put] using stored.contents operand kept
  · intro same
    rw [same]
    exact alike_next position (agree.put operand first.values.accumulator)

theorem signOpcode_eq_iff {opcode : Opcode} {sign : Sign} :
    opcode = signOpcode sign ↔
      opcode = .add ∧ sign = .plus ∨ opcode = .subtract ∧ sign = .minus := by
  cases sign <;> simp [signOpcode]

theorem not_tellsApart_store {one other : Values} :
    ¬TellsApart .store operand one other ↔ other.accumulator = one.accumulator := by
  simp [TellsApart, signOpcode_eq_iff]

theorem not_tellsApart_signOpcode (sign : Sign) {one other : Values} :
    ¬TellsApart (signOpcode sign) operand one other ↔
      (Decimal.Writable (sign.apply other.accumulator (other.contents operand)) ↔
        Decimal.Writable (sign.apply one.accumulator (one.contents operand))) := by
  cases sign with
  | plus =>
      change ¬TellsApart .add operand one other ↔ _
      simp [TellsApart, signOpcode_eq_iff]
  | minus =>
      change ¬TellsApart .subtract operand one other ↔ _
      simp [TellsApart, signOpcode_eq_iff]

/-- An operation that neither stores nor computes tells nothing apart. -/
theorem not_tellsApart {opcode : Opcode} (plain : opcode ∉ [.store, .add, .subtract])
    {one other : Values} : ¬TellsApart opcode operand one other := by
  simp only [List.mem_cons, List.not_mem_nil, or_false, not_or] at plain
  simp [TellsApart, signOpcode_eq_iff, plain]

/-- An operation on a variable that is not eliminated has alike outcomes,
unless it tells the accumulators apart. -/
theorem alike_perform {opcode : Opcode} (kept : operand ∉ eliminated)
    (position : second.position = first.position)
    (agree : AgreeOutside eliminated first.values second.values) :
    Alike eliminated (first.proceed (first.values.perform operand opcode))
        (second.proceed (second.values.perform operand opcode)) ↔
      ¬TellsApart opcode operand first.values second.values := by
  cases opcode with
  | add =>
      exact (alike_combine .plus position agree).trans (not_tellsApart_signOpcode .plus).symm
  | subtract =>
      exact (alike_combine .minus position agree).trans (not_tellsApart_signOpcode .minus).symm
  | store =>
      exact (alike_store kept position agree).trans not_tellsApart_store.symm
  | read =>
      exact iff_of_true (alike_read position agree) (not_tellsApart (by simp))
  | write =>
      have written : AgreeOutside eliminated
          { first.values with
            outputs := first.values.outputs ++ [first.values.contents operand] }
          { second.values with
            outputs := second.values.outputs ++ [second.values.contents operand] } :=
        { agree with
          outputs := by
            rw [agree.outputs, agree.contents operand kept] }
      exact iff_of_true (alike_next position written) (not_tellsApart (by simp))
  | load =>
      exact iff_of_true (alike_next position (agree.accumulate _ _))
        (not_tellsApart (by simp))
  | branch | branchNeg | branchZero | halt =>
      exact iff_of_true (alike_ended .meaningless agree) (not_tellsApart (by simp))

end Operations

section Step

variable {eliminated : List String} {lines : List Line} {line : Line} {first second : Point}

theorem alike_expression (independent : Independent eliminated lines) (member : line ∈ lines)
    {name term : String} {rest : List (Sign × String)}
    (form : line.form = .expression name term rest) (kept : name ∉ eliminated)
    (position : second.position = first.position)
    (agree : AgreeOutside eliminated first.values second.values) :
    Alike eliminated (first.proceed (first.values.evaluate name term rest))
      (second.proceed (second.values.evaluate name term rest)) := by
  have terms := independent.terms line member name term rest form kept
  have start : second.values.contents term = first.values.contents term :=
    agree.contents term (terms term List.mem_cons_self)
  have chain : Values.fold second.values.contents (first.values.contents term) rest =
      Values.fold first.values.contents (first.values.contents term) rest := by
    apply Values.fold_congr
    intro operator operatorMem
    exact agree.contents _ (terms _ (List.mem_cons_of_mem _ (List.mem_map_of_mem operatorMem)))
  rw [Values.evaluate, Values.evaluate, start, chain]
  cases Values.fold first.values.contents (first.values.contents term) rest with
  | ok value => exact alike_next position (agree.assign name value)
  | error error => exact alike_ended (.tooLong error) agree

theorem alike_eliminated {name term : String} {rest : List (Sign × String)}
    (dropped : name ∈ eliminated) (position : second.position = first.position)
    (agree : AgreeOutside eliminated first.values second.values) :
    Alike eliminated (.ok (first.next first.values))
        (second.proceed (second.values.evaluate name term rest)) ↔
      ∀ error, Values.fold second.values.contents (second.values.contents term) rest ≠
        .error error := by
  rw [Values.evaluate]
  cases Values.fold second.values.contents (second.values.contents term) rest with
  | ok value =>
      have alike := alike_next position (agree.assign_eliminated dropped value)
      exact iff_of_true alike (by simp)
  | error error =>
      refine iff_of_false ?_ (by simp)
      rintro ⟨⟩

theorem commandStep_branch {command operand : String} {opcode : Opcode}
    (mnemonic : Opcode.ofMnemonic? command = some opcode) (branch : opcode.isBranch = true)
    (point : Point) :
    commandStep lines command (some operand) point =
      match leads lines opcode operand point with
      | some line => .ok ⟨line, point.values⟩
      | none => .error (.meaningless, point.values) := by
  simp only [commandStep, mnemonic, branch, if_true, leads]
  split
  · cases target? lines operand <;> rfl
  · rfl

theorem alike_branch {command operand : String} {opcode : Opcode}
    (mnemonic : Opcode.ofMnemonic? command = some opcode) (branch : opcode.isBranch = true)
    (agree : AgreeOutside eliminated first.values second.values) :
    Alike eliminated (commandStep lines command (some operand) first)
        (commandStep lines command (some operand) second) ↔
      leads lines opcode operand second = leads lines opcode operand first := by
  rw [commandStep_branch mnemonic branch, commandStep_branch mnemonic branch]
  cases one : leads lines opcode operand first with
  | none =>
      cases other : leads lines opcode operand second with
      | none => exact iff_of_true (alike_ended .meaningless agree) rfl
      | some line =>
          refine iff_of_false ?_ (by simp)
          rintro ⟨⟩
  | some line =>
      cases other : leads lines opcode operand second with
      | none =>
          refine iff_of_false ?_ (by simp)
          rintro ⟨⟩
      | some destination =>
          constructor
          · intro alike
            cases alike with
            | ok position => exact congrArg some position
          · intro same
            exact .ok (Option.some.inj same) agree

theorem alike_command (independent : Independent eliminated lines) (member : line ∈ lines)
    {command : String} {operand : Option String} (form : line.form = .instruction command operand)
    (position : second.position = first.position)
    (agree : AgreeOutside eliminated first.values second.values) :
    Alike eliminated (commandStep lines command operand first)
        (commandStep lines command operand second) ↔
      ¬Disturbs eliminated lines line first second := by
  cases mnemonic : Opcode.ofMnemonic? command with
  | none =>
      cases operand <;>
        simpa [Disturbs, form, commandStep, mnemonic] using alike_ended .meaningless agree
  | some opcode =>
      cases operand with
      | none =>
          cases opcode <;>
            simpa [Disturbs, form, commandStep, mnemonic] using alike_ended _ agree
      | some operand =>
          by_cases branch : opcode.isBranch = true
          · simp [Disturbs, form, mnemonic, branch, alike_branch mnemonic branch agree]
          · have kept : operand ∉ eliminated :=
              independent.operands line member command operand opcode form mnemonic
                (by simpa using branch)
            simpa [Disturbs, form, commandStep, mnemonic, branch] using
              alike_perform kept position agree

/-- Executions that are alike stay alike at a line if and only if it does not
disturb them. -/
theorem alike_lineStep (independent : Independent eliminated lines)
    (here : lines[first.position]? = some line) (position : second.position = first.position)
    (agree : AgreeOutside eliminated first.values second.values) :
    Alike eliminated (lineStep eliminated lines first) (lineStep [] lines second) ↔
      ¬Disturbs eliminated lines line first second := by
  have member := List.mem_of_getElem? here
  have there : lines[second.position]? = some line := by rw [position, here]
  simp only [lineStep, here, there]
  cases form : line.form with
  | blank | comment | label | «variable» =>
      exact iff_of_true (alike_next position agree) (by simp [Disturbs, form])
  | expression name term rest =>
      simp only [List.not_mem_nil, if_false, Disturbs, form]
      by_cases dropped : name ∈ eliminated
      · simp [dropped, alike_eliminated dropped position agree]
      · have alike := alike_expression independent member form dropped position agree
        simpa [dropped] using alike
  | instruction command operand =>
      exact alike_command independent member form position agree

end Step

/-! ## Executions -/

/-- No line on the way disturbs the two executions. -/
def Undisturbed (eliminated : List String) (lines : List Line) (inputs : List String) : Prop :=
  ∀ n first second line, execution eliminated lines inputs n = .ok first →
    execution [] lines inputs n = .ok second → lines[first.position]? = some line →
      ¬Disturbs eliminated lines line first second

section Executions

variable {eliminated : List String} {lines : List Line} {inputs : List String}

theorem execution_succ {n : Nat} {point : Point}
    (reached : execution eliminated lines inputs n = .ok point) :
    execution eliminated lines inputs (n + 1) = lineStep eliminated lines point :=
  (after_add reached 1).trans (after_one _ point)

/-- The executions with and without the eliminated expressions go on alike if
and only if no line disturbs them. -/
theorem alike_execution_iff (independent : Independent eliminated lines) :
    (∀ n, Alike eliminated (execution eliminated lines inputs n) (execution [] lines inputs n)) ↔
      Undisturbed eliminated lines inputs := by
  constructor
  · intro alike n first second line one other here
    have now := alike n
    have later := alike (n + 1)
    rw [one, other] at now
    rw [execution_succ one, execution_succ other] at later
    cases now with
    | ok position agree => exact (alike_lineStep independent here position agree).mp later
  · intro undisturbed n
    induction n with
    | zero => exact .ok rfl (.refl eliminated _)
    | succ n ih =>
        cases one : execution eliminated lines inputs n with
        | error ending =>
            rw [one] at ih
            cases other : execution [] lines inputs n with
            | ok second =>
                rw [other] at ih
                cases ih
            | error last =>
                rw [other] at ih
                rw [execution, after_add_of_error one 1, execution, after_add_of_error other 1]
                exact ih
        | ok first =>
            rw [one] at ih
            cases other : execution [] lines inputs n with
            | error last =>
                rw [other] at ih
                cases ih
            | ok second =>
                rw [other] at ih
                rw [execution_succ one, execution_succ other]
                cases ih with
                | ok position agree =>
                    cases here : lines[first.position]? with
                    | none =>
                        simp only [lineStep, position, here]
                        exact alike_ended .halted agree
                    | some line =>
                        exact (alike_lineStep independent here position agree).mpr
                          (undisturbed n first second line one other here)

end Executions

end DecimalMachine.Semantics
