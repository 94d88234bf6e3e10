import DecimalMachine.Proofs.Processor.Environments

/-!
# Observed cycles

An observer can stop a run, but it cannot change what a cycle does.  A cycle in
an observed environment is the cycle in a plain one, over states that answer
reads alike.
-/

namespace DecimalMachine.Processor

variable {σ τ : Type}

/-- An observer that never stops execution. -/
structure Unobserved (environment : Environment σ) : Prop where
  allows : ∀ registers word state, environment.allows registers word state = (true, state)
  accepts : ∀ address value state, environment.accepts address value state = (true, state)

/-- An environment does to related states what a plain one does, and its
observer leaves them related. -/
structure Mirrors (environment : Environment σ) (plain : Environment τ)
    (Related : σ → τ → Prop) : Prop where
  unobserved : Unobserved plain
  input : ∀ {state other} address, Related state other →
    (environment.input address state).1 = (plain.input address other).1 ∧
      Related (environment.input address state).2 (plain.input address other).2
  output : ∀ {state other} address value, Related state other →
    Related (environment.output address value state) (plain.output address value other)
  trace : ∀ {state other} registers, Related state other →
    Related (environment.trace registers state) (plain.trace registers other)
  allows : ∀ {state other} registers word, Related state other →
    Related (environment.allows registers word state).2 other
  accepts : ∀ {state other} address value, Related state other →
    Related (environment.accepts address value state).2 other

/-- The observer objects in some related state. -/
def Objects (environment : Environment σ) (Related : σ → τ → Prop) : Prop :=
  ∃ state other, Related state other ∧
    ((∃ registers word, (environment.allows registers word state).1 = false) ∨
      ∃ address value, (environment.accepts address value state).1 = false)

/-- What a cycle did is what a plain cycle did, but that a write may have been
refused. -/
structure Reflects (environment : Environment σ) (Related : σ → τ → Prop)
    (observed : Progress × Processor × σ) (plain : Progress × Processor × τ) : Prop where
  progress : plain.1 = observed.1.settled
  processor : plain.2.1 = observed.2.1
  related : Related observed.2.2 plain.2.2
  refused : ∀ write, observed.1 = .advanced (some write) → Objects environment Related

section Cycle

variable {environment : Environment σ} {plain : Environment τ} {Related : σ → τ → Prop}
  {state : σ} {other : τ}

/-- What is no refused write is reflected by itself. -/
theorem reflects_same {progress : Progress} (settled : progress.settled = progress)
    (processor : Processor) (related : Related state other) :
    Reflects environment Related (progress, processor, state) (progress, processor, other) where
  progress := settled.symm
  processor := rfl
  related := related
  refused := by
    intro write refused
    rw [show progress = .advanced (some write) from refused] at settled
    cases settled

theorem reflects_settle (related : Related state other) (processor : Processor)
    (outcome : Except ExecutionError Processor) :
    Reflects environment Related (processor.settle outcome state)
      (processor.settle outcome other) := by
  cases outcome with
  | ok next => exact reflects_same rfl next related
  | error error => exact reflects_same rfl processor related

variable (mirrors : Mirrors environment plain Related) (related : Related state other)

include mirrors related

theorem reflects_writeCell (processor : Processor) (operand : Nat) (value : String) :
    Reflects environment Related (processor.writeCell environment operand value state)
      (processor.writeCell plain operand value other) := by
  unfold writeCell
  cases processor.memory.write operand value with
  | error error => exact reflects_same rfl _ related
  | ok memory =>
      have after := mirrors.accepts operand value related
      rcases answer : environment.accepts operand value state with ⟨accepted, rest⟩
      rw [answer] at after
      rw [mirrors.unobserved.accepts]
      refine ⟨rfl, rfl, after, ?_⟩
      intro write refused
      refine ⟨state, other, related, .inr ⟨operand, value, ?_⟩⟩
      cases accepted with
      | true => cases refused
      | false => rw [answer]

theorem reflects_readInput (processor : Processor) (operand : Nat) :
    Reflects environment Related (processor.readInput environment operand state)
      (processor.readInput plain operand other) := by
  obtain ⟨same, after⟩ := mirrors.input operand related
  simp only [readInput, same]
  cases processor.inputValue operand (plain.input operand other).1 with
  | error error => exact reflects_same rfl _ after
  | ok value => exact reflects_writeCell mirrors after processor operand value

theorem reflects_writeOutput (processor : Processor) (operand : Nat) :
    Reflects environment Related (processor.writeOutput environment operand state)
      (processor.writeOutput plain operand other) := by
  unfold writeOutput
  cases processor.cell operand with
  | error error => exact reflects_same rfl _ related
  | ok value => exact reflects_same rfl _ (mirrors.output operand value related)

theorem reflects_execute (processor : Processor) (opcode : Opcode) (operand : Nat) :
    Reflects environment Related (processor.execute environment opcode operand state)
      (processor.execute plain opcode operand other) := by
  cases opcode with
  | read => exact reflects_readInput mirrors related processor operand
  | write => exact reflects_writeOutput mirrors related processor operand
  | store => exact reflects_writeCell mirrors related processor operand _
  | load | add | subtract | branchNeg | branchZero => exact reflects_settle related processor _
  | branch => exact reflects_settle related processor (.ok (processor.goTo operand))
  | halt => exact reflects_same rfl _ related

/-- A cycle in a mirroring environment is a plain cycle. -/
theorem reflects_cycle (processor : Processor) :
    Reflects environment Related (processor.cycle environment state)
      (processor.cycle plain other) := by
  simp only [cycle]
  cases Instruction.ofText? processor.fetch with
  | none => exact reflects_same rfl _ related
  | some instruction =>
      simp only
      cases instruction.operation? with
      | none => exact reflects_same rfl _ related
      | some opcode =>
          exact reflects_execute mirrors (mirrors.trace _ related) _ opcode _

/-- An observed cycle is one that a plain environment makes as well. -/
theorem exists_plain_cycle {processor next : Processor} {progress : Progress} {rest : σ}
    (executed : processor.cycle environment state = (progress, next, rest)) :
    ∃ after, processor.cycle plain other = (progress.settled, next, after) ∧
      Related rest after := by
  have reflects := reflects_cycle mirrors related processor
  rcases same : processor.cycle plain other with ⟨settled, reached, after⟩
  rw [executed, same] at reflects
  exact ⟨after, Prod.ext reflects.progress (Prod.ext reflects.processor rfl), reflects.related⟩

/-- The observer is asked about an instruction unless the run is resumed there. -/
theorem related_permits {processor : Processor} {resumed : Option Nat} {allowed : Bool} {rest : σ}
    (asked : processor.permits environment resumed state = (allowed, rest)) :
    Related rest other ∧ (allowed = false →
      resumed ≠ some processor.registers.pc ∧ Objects environment Related) := by
  unfold permits at asked
  split at asked
  · cases asked
    constructor
    · exact related
    · rintro ⟨⟩
  · next fresh =>
      have after := mirrors.allows processor.registers processor.fetch related
      rw [asked] at after
      constructor
      · exact after
      · rintro rfl
        exact ⟨fresh, state, other, related,
          .inl ⟨processor.registers, processor.fetch, by rw [asked]⟩⟩

end Cycle

/-- An environment without an observer mirrors itself. -/
theorem mirrors_self {environment : Environment σ} (unobserved : Unobserved environment) :
    Mirrors environment environment (· = ·) where
  unobserved := unobserved
  input := by
    rintro state other address rfl
    exact ⟨rfl, rfl⟩
  output := by
    rintro state other address value rfl
    rfl
  trace := by
    rintro state other registers rfl
    rfl
  allows := by
    rintro state other registers word rfl
    rw [unobserved.allows]
  accepts := by
    rintro state other address value rfl
    rw [unobserved.accepts]

/-- Where nothing stops execution, no write is refused. -/
theorem accepted_of_cycle {environment : Environment σ} (unobserved : Unobserved environment)
    {processor next : Processor} {state rest : σ} {refused : Option (Nat × String)}
    (executed : processor.cycle environment state = (.advanced refused, next, rest)) :
    refused = none := by
  obtain ⟨after, same, _⟩ := exists_plain_cycle (mirrors_self unobserved) rfl executed
  rw [executed] at same
  exact Progress.advanced.inj (congrArg Prod.fst same)

end DecimalMachine.Processor
