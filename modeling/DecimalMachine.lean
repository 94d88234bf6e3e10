import DecimalMachine.CommandLine.Arguments
import DecimalMachine.CommandLine.CompileTool
import DecimalMachine.CommandLine.Report
import DecimalMachine.CommandLine.RunTool
import DecimalMachine.CommandLine.Terminal
import DecimalMachine.CommandLine.Tool
import DecimalMachine.Debug.Breakpoints
import DecimalMachine.Debug.Condition
import DecimalMachine.Decimal.Basic
import DecimalMachine.Decimal.Digit
import DecimalMachine.Decimal.Literal
import DecimalMachine.Decimal.Numeral
import DecimalMachine.Decimal.Places
import DecimalMachine.Files.Directory
import DecimalMachine.Files.Failure
import DecimalMachine.Files.Path
import DecimalMachine.Files.Programs
import DecimalMachine.Machine.Basic
import DecimalMachine.Machine.Settings
import DecimalMachine.Main
import DecimalMachine.Memory.Basic
import DecimalMachine.Memory.Grid
import DecimalMachine.Narration.Compiling
import DecimalMachine.Narration.Record
import DecimalMachine.Narration.Running
import DecimalMachine.Processor.Basic
import DecimalMachine.Processor.Environment
import DecimalMachine.Processor.Event
import DecimalMachine.Processor.Fault
import DecimalMachine.Processor.Registers
import DecimalMachine.Processor.Run
import DecimalMachine.Program.Basic
import DecimalMachine.Program.Compilation
import DecimalMachine.Program.Emission
import DecimalMachine.Program.Layout
import DecimalMachine.Program.Liveness
import DecimalMachine.Program.Relocation
import DecimalMachine.Program.Table
import DecimalMachine.Proofs.CommandLine.Transparency
import DecimalMachine.Proofs.Decimal.Canonical
import DecimalMachine.Proofs.Machine.Calls
import DecimalMachine.Proofs.Machine.Debugging
import DecimalMachine.Proofs.Machine.Driving
import DecimalMachine.Proofs.Memory.Cells
import DecimalMachine.Proofs.Processor.Counting
import DecimalMachine.Proofs.Processor.Cycle
import DecimalMachine.Proofs.Processor.Environments
import DecimalMachine.Proofs.Processor.Observation
import DecimalMachine.Proofs.Processor.Representation
import DecimalMachine.Proofs.Processor.Resumption
import DecimalMachine.Proofs.Processor.Running
import DecimalMachine.Proofs.Processor.Stops
import DecimalMachine.Proofs.Program.Acceptance
import DecimalMachine.Proofs.Program.Emission
import DecimalMachine.Proofs.Program.Equivariance
import DecimalMachine.Proofs.Program.Image
import DecimalMachine.Proofs.Program.Layout
import DecimalMachine.Proofs.Program.Liveness
import DecimalMachine.Proofs.Program.Optimization
import DecimalMachine.Proofs.Program.Refinement
import DecimalMachine.Proofs.Program.Safety
import DecimalMachine.Proofs.Program.Simulation
import DecimalMachine.Proofs.Semantics.Code
import DecimalMachine.Proofs.Semantics.Elimination
import DecimalMachine.Proofs.Semantics.Iteration
import DecimalMachine.Proofs.Semantics.Lines
import DecimalMachine.Proofs.Semantics.Values
import DecimalMachine.Proofs.Source.Reading
import DecimalMachine.Proofs.Word.Rendering
import DecimalMachine.Source.Diagnostic
import DecimalMachine.Source.Error
import DecimalMachine.Source.Form
import DecimalMachine.Source.Line
import DecimalMachine.Source.Location
import DecimalMachine.Text.Blank
import DecimalMachine.Text.Capital
import DecimalMachine.Text.Escape
import DecimalMachine.Text.Identifier
import DecimalMachine.Text.Lines
import DecimalMachine.Text.Pieces
import DecimalMachine.Text.Printable
import DecimalMachine.Text.Quoted
import DecimalMachine.Text.Similarity
import DecimalMachine.Text.Utf8
import DecimalMachine.Word.Basic
import DecimalMachine.Word.Instruction
import DecimalMachine.Word.Opcode
import DecimalMachine.Proofs.Processor.Writes
import DecimalMachine.Proofs.Machine.Stopping
import DecimalMachine.Proofs.Program.Needs
import DecimalMachine.Proofs.Program.Requirements
import DecimalMachine.Proofs.Source.Extent
import DecimalMachine.Proofs.Program.WellFormed
import DecimalMachine.Proofs.Program.Labels
import DecimalMachine.Proofs.Program.Relocation
import DecimalMachine.Proofs.Program.Renaming
import DecimalMachine.Proofs.Program.Deletion
import DecimalMachine.Proofs.Source.Truncation
import DecimalMachine.Proofs.Program.Termination
import DecimalMachine.Proofs.Source.Literals
import DecimalMachine.Proofs.Processor.Limits
import DecimalMachine.Proofs.Text.Lines
import DecimalMachine.Proofs.Files.Directory
import DecimalMachine.Proofs.Files.Path
import DecimalMachine.Proofs.Files.Programs
import DecimalMachine.Proofs.CommandLine.Quiet
import DecimalMachine.Proofs.CommandLine.Routes
import DecimalMachine.Proofs.Program.Blank
import DecimalMachine.Proofs.Program.Rearrangement
import DecimalMachine.Proofs.Processor.Consistency
import DecimalMachine.Proofs.Processor.Atomicity
import DecimalMachine.Proofs.Text.Tokens
import DecimalMachine.Proofs.Source.Grammar
import DecimalMachine.Proofs.Source.Classification
import DecimalMachine.Proofs.Program.Chains
import DecimalMachine.Proofs.Machine.Loading
import DecimalMachine.Proofs.Decimal.Numerals
import DecimalMachine.Proofs.Debug.Conditions
import DecimalMachine.Proofs.Walks
import DecimalMachine.Proofs.Processor.Agreement
import DecimalMachine.Proofs.Program.MemorySize
import DecimalMachine.Proofs.Text.Utf8
import DecimalMachine.Proofs.Files.Loading
import DecimalMachine.Proofs.Source.Printing
import DecimalMachine.Proofs.Program.Reprinting
import DecimalMachine.Proofs.Program.Faults
import DecimalMachine.Proofs.Program.Reports
import DecimalMachine.Proofs.Word.Decoding
import DecimalMachine.Proofs.Files.Newlines
import DecimalMachine.Proofs.Files.Writing
import DecimalMachine.Proofs.CommandLine.Writing
import DecimalMachine.Proofs.Processor.Expressions
import DecimalMachine.Proofs.InPlace
import DecimalMachine.Proofs.Memory.Grid
import DecimalMachine.Proofs.Occurrences
import DecimalMachine.Proofs.Program.Declarations
import DecimalMachine.Proofs.Program.Sharing
