import LineForth.Program

/-! # The command line

The program on the real standard streams. Each line is answered as soon as it is read.
-/

namespace LineForth.CommandLine

def printTrace (options : Options) (trace : Trace) : IO Unit := do
  IO.print (Program.shown options trace)
  (← IO.getStdout).flush

/-- The exit status of a halt, with a word on the error stream where it is no leave-taking. -/
def leave : Halt → IO UInt32
  | .bye => return 0
  | .error cause => do
      IO.eprintln cause.render
      return 1
  | .defect cause => do
      IO.eprintln cause.message
      return 1

partial def takeEntries (options : Options) (machine : Machine) : IO UInt32 := do
  printTrace options [.printed Dialogue.prompt]
  let line ← (← IO.getStdin).getLine
  if line.isEmpty then
    printTrace options [.printed "\n"]
    return 0
  let text := if line.endsWith "\n" then (line.dropEnd 1).toString else line
  let reply := machine.respond text
  printTrace options reply.trace
  match reply.result with
  | .ok _ => takeEntries options reply.machine
  | .error cause => leave cause

def start (arguments : List String) : IO UInt32 := do
  match Options.ofArguments arguments with
  | .error cause =>
      IO.print cause.output
      IO.eprint cause.errors
      return UInt32.ofNat cause.status
  | .ok options =>
      if options.version then
        IO.eprintln Program.versionNotice
        return 1
      printTrace options Program.opening.trace
      takeEntries options Program.opening.machine

end LineForth.CommandLine

def main (arguments : List String) : IO UInt32 := LineForth.CommandLine.start arguments
