import DecimalMachine.Files.Path
import DecimalMachine.Narration.Record
import DecimalMachine.Processor.Event
import DecimalMachine.Processor.Registers

/-!
# What loading and running tell

Loading tells how many words were read and loaded, and running tells of every
instruction and of the end of the program.
-/

namespace DecimalMachine.Narration

/-- The record of words written to a file. -/
def wrote (count : Nat) (path : Path) : Record :=
  .debug ("Wrote " ++ Decimal.text count ++ " words to " ++ path.render)

/-- The record of words read from a file. -/
def read (count : Nat) (path : Path) : Record :=
  .debug ("Read " ++ Decimal.text count ++ " words from " ++ path.render)

/-- The records of words loaded into memory. -/
def loaded (count : Nat) : List Record :=
  [.debug ("Loaded " ++ Decimal.text count ++ " words"),
    .info ("Loaded program of " ++ Decimal.text count ++ " words")]

/-- The record of an instruction, by the registers after it was decoded. -/
def executed (registers : Registers) : Record :=
  .debug (Decimal.twoDigits registers.pc ++ ": " ++
    (registers.opcode.map Opcode.mnemonic).getD "" ++ " " ++
    Decimal.twoDigits registers.operand ++ " acc=" ++ registers.accumulator)

/-- The record of the end of a program. -/
def ended (event : Event) (cycles : Nat) : Record :=
  .info (event.render ++ " after " ++ Decimal.text cycles ++ " cycles")

end DecimalMachine.Narration
