import LineForth.Dialogue
import LineForth.Options

/-! # The program

The program as a function of its arguments and its standard input: what it prints and how it ends.
It shows its banner and holds a dialogue on a new machine with the core words, taking each line of
the input as an entry. Asked to be verbose, it prints the records of the run in between.
-/

namespace LineForth

inductive Ending
  /-- The dialogue was broken off at the prompt. -/
  | finished
  /-- The dialogue came to a halt. -/
  | halted (cause : Halt)
  /-- The program was asked for its version alone, and this text is its last word. -/
  | versionAsked (notice : String)
  /-- The arguments kept the program from starting. -/
  | dismissed (cause : Dismissal)
deriving DecidableEq, Repr

/-- What the program prints, for the user and as errors, and how it ends. -/
structure Outcome where
  output : String
  errors : String
  ending : Ending
deriving DecidableEq, Repr

namespace Program

def version : String := "0.2.0"

def banner : String := "OxForth " ++ version ++ " - https://github.com/xSetech/OxForth\n"

def versionNotice : String := "oxforth " ++ version

/-- What happens before the first entry is taken. -/
def opening : Run Unit :=
  ((Run.done () Machine.empty).after [.printed banner]).andThen (fun _ machine => machine.loadCore)
    |>.andThen (fun _ machine => Dialogue.greet machine)

/-- The lines of a text, without their terminators; a last line may lack its own. -/
def lines (text : List Char) : List (List Char) :=
  let pieces := text.splitOn '\n'
  if pieces.getLast? = some [] then pieces.dropLast else pieces

/-- The lines of the standard input as entries of a dialogue. -/
def entries (input : String) : List Entry :=
  (lines input.toList).map fun line => .line (String.ofList line)

def shown (options : Options) (trace : Trace) : String :=
  if options.verbose then trace.verboseOutput else trace.output

def endingOf (run : Run Unit) : Ending :=
  match run.result with
  | .ok _ => .finished
  | .error cause => .halted cause

/-- The outcome of the program once its options are known. -/
def start (options : Options) (input : String) : Outcome :=
  if options.version then ⟨"", "", .versionAsked versionNotice⟩
  else
    let dialogue := Dialogue.follow opening (entries input)
    ⟨shown options dialogue.run.trace, "", endingOf dialogue.run⟩

def run (arguments : List String) (input : String) : Outcome :=
  match Options.ofArguments arguments with
  | .error cause => ⟨cause.output, cause.errors, .dismissed cause⟩
  | .ok options => start options input

end Program

end LineForth
