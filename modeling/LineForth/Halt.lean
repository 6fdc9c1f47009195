import LineForth.Error

/-! # Halts

Why a run ends before its work is done: an error of the language, a defect in what was asked of the
machine, or the word that takes leave. A defect lies outside the language: its rules do not say what
such a request means, and a dialogue does not recover from it.
-/

namespace LineForth

/-- A request that the machine has no meaning for. -/
inductive Defect
  /-- A name was looked up that the dictionary does not hold. -/
  | missingEntry (name : String)
  /-- A scan was to start before the first character of its line. -/
  | startBeforeLine
  /-- A scan was to start so far before its line that the position is none at all. -/
  | startOutOfReach
  /-- A number was written in more digits than are read, leading zeros counted. -/
  | tooManyDigits (count : Nat)
  /-- A text was to be read as a number that does not have the form of one. -/
  | malformedNumber (text : String)
deriving DecidableEq, Repr

/-- Why a run stopped. -/
inductive Halt
  | error (cause : LanguageError)
  | defect (cause : Defect)
  | bye
deriving DecidableEq, Repr

def Defect.message : Defect → String
  | missingEntry name => "no entry for " ++ Text.Quoted.encode name
  | startBeforeLine => "the scan starts before the line"
  | startOutOfReach => "the scan starts at no position"
  | tooManyDigits count => s!"a number of {count} digits is too long"
  | malformedNumber text => "not a number: " ++ Text.Quoted.encode text

namespace Halt

def ofScan (cause : ScanError) (line : String) : Halt := .error (.scan cause (some line))

def ofParse (cause : ParseError) : Halt := .error (.parse cause)

def ofExecution (cause : ExecutionError) : Halt := .error (.execution cause)

/-- Whether the language's rules account for the halt as an error. -/
def isError : Halt → Bool
  | error _ => true
  | defect _ | bye => false

end Halt

end LineForth
