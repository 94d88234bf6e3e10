import DecimalMachine.Processor.Registers

/-!
# The environment of a processor

A processor answers to its environment: the source of input, the receiver of
output, a listener that is told of each instruction, and an observer that may
stop execution before an instruction or after a write.  The environment has a
state of its own, which each of them may change and which the processor only
passes on.
-/

namespace DecimalMachine

/-- What surrounds a processor, over a state of its own. -/
structure Environment (σ : Type) where
  /-- The answer to a read into an address, if there is one. -/
  input : Nat → σ → Option String × σ
  /-- Receives a value written from an address. -/
  output : Nat → String → σ → σ
  /-- Is told of the registers after an instruction was decoded. -/
  trace : Registers → σ → σ
  /-- Whether the instruction at the program counter may be executed. -/
  allows : Registers → String → σ → Bool × σ
  /-- Whether execution may go on after a write to an address. -/
  accepts : Nat → String → σ → Bool × σ

namespace Environment

variable {σ : Type}

/-- An environment that never stops execution. -/
def unobserved (environment : Environment σ) : Environment σ :=
  { environment with
    allows := fun _ _ state => (true, state)
    accepts := fun _ _ state => (true, state) }

end Environment

end DecimalMachine
