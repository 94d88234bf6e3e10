import DecimalMachine.CommandLine.Tool

/-!
# The program

The first argument names a tool, and the others are for the tool.  The tools
are functions of what a call can see, so the program gathers it: the files at
the paths that the call looks at, the text that sets the memory size, and the
lines of input.  A line is only waited for when a tool has asked for it.  The
call is then made again with one line more; it writes what it wrote before, and
only what is new is shown.
-/

namespace DecimalMachine.CommandLine

/-- The number under which the file system refuses to read a folder. -/
def folderNumber : UInt32 := 21

/-- What lies at a place of the file system. -/
def look (place : Place) : IO (Option Node) := do
  try
    let content ← IO.FS.readBinFile place.render
    pure (some (.file content.toList))
  catch
    | .inappropriateType _ number _ => pure (if number = folderNumber then some .folder else none)
    | _ => pure none

/-- The part of the file system that a call looks at. What lies at the same place
on every system is known already. -/
def survey (paths : List Path) : IO Directory := do
  let places := (paths.flatMap Directory.waypoints).eraseDups.filter fun place =>
    (Directory.standing? place).isNone
  let nodes ← places.mapM fun place => do
    pure ((← look place).map (place, ·))
  pure ⟨nodes.filterMap id⟩

/-- Show what was written from one number of entries on and before another. -/
def display (terminal : Terminal) (first past : Nat) : IO Unit := do
  for (stream, text) in terminal.written.toList.take past |>.drop first do
    match stream with
    | .output => IO.print text
    | .error => IO.eprint text
    | .echo => pure ()
  (← IO.getStdout).flush

/-- Write the files that a call has made. -/
def store (after before : Directory) : IO Unit := do
  for (place, content) in after.filesNewTo before do
    IO.FS.writeBinFile place.render ⟨content.toArray⟩

/-- A call of a tool with all that does not change in its course. -/
structure Call where
  tool : Tool
  arguments : List String
  surroundings : Surroundings
  directory : Directory

/-- Make a call with the lines that were read so far. -/
def Call.make (call : Call) (fuel : Nat) (lines : List String) : Result :=
  call.tool.call call.surroundings fuel call.arguments call.directory lines

/-- How far a call has come: the instructions that it is granted, the lines of
input, whether there are no more, and how much of what it writes was shown. -/
structure Progress where
  fuel : Nat
  lines : List String
  ended : Bool
  shown : Nat

/-- Make a call over and over until it is done. -/
partial def Call.pursue (call : Call) (progress : Progress) : IO UInt32 :=
  match call.make progress.fuel progress.lines with
  | .misuse => do
      IO.eprintln call.tool.usage
      pure (UInt32.ofNat Status.invalidArguments.code)
  | .unfinished terminal =>
      advance terminal fun shown =>
        call.pursue { progress with fuel := 2 * progress.fuel, shown := shown }
  | .finished finish =>
      advance finish.terminal fun _ => do
        store finish.directory call.directory
        pure (UInt32.ofNat finish.status.code)
where
  /-- Show what is new and go on, or read a line where one was asked for. -/
  advance (terminal : Terminal) (proceed : Nat → IO UInt32) : IO UInt32 := do
    match progress.ended, terminal.wanted with
    | false, some count =>
        display terminal progress.shown count
        let line ← (← IO.getStdin).getLine
        call.pursue
          { progress with
            lines := progress.lines ++ Terminal.inputLines line
            ended := line.isEmpty
            shown := max progress.shown count }
    | _, _ =>
        display terminal progress.shown terminal.written.size
        proceed (max progress.shown terminal.written.size)

/-- The time that a call takes before it executes a program, in thousandths of a
millisecond. -/
def Call.measure (call : Call) : IO Int := do
  let began ← IO.monoNanosNow
  let _ ← IO.lazyPure fun _ => call.make 0 []
  let done ← IO.monoNanosNow
  pure ((done - began) / 1000 : Nat)

end DecimalMachine.CommandLine

open DecimalMachine CommandLine

/-- Call the tool that the first argument names. -/
def main : List String → IO UInt32
  | [] => usage
  | name :: arguments =>
      match Tool.ofName? name with
      | none => usage
      | some tool => do
          let directory ← survey (tool.paths arguments)
          let call : Call :=
            { tool := tool
              arguments := arguments
              surroundings := ⟨← IO.getEnv Settings.sizeVariable, 0⟩
              directory := directory }
          let elapsed ← call.measure
          let surroundings := { call.surroundings with elapsed := elapsed }
          Call.pursue { call with surroundings := surroundings } ⟨1024, [], false, 0⟩
where
  /-- Show how the tools are used. -/
  usage : IO UInt32 := do
    IO.eprintln (Tool.usage .compile ++ "\n\n" ++ Tool.usage .run)
    pure (UInt32.ofNat Status.invalidArguments.code)
