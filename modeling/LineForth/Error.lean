import LineForth.Text.Quoted

/-! # Language errors

What a line of the language can do wrong, one constructor for each cause, grouped by the stage that
finds it. Each error has a name, the categories it belongs to and a message; an error that keeps
the line it was found in shows the line first.
-/

namespace LineForth

/-- Faults of a whole line, found before anything is read off it. -/
inductive ScanError
  | nonAscii
  | missingTrailingWhitespace
deriving DecidableEq, Repr

/-- Faults of a single word or number. -/
inductive ParseError
  | undefinedWord (name : String)
  | numberOutOfRange (text : String)
deriving DecidableEq, Repr

/-- Faults of an operation on the data stack it finds. -/
inductive ExecutionError
  | stackUnderflow
  | typeMismatch
  | divisionByZero
deriving DecidableEq, Repr

/-- The categories that errors fall into, below the one that holds them all. -/
inductive ErrorCategory
  | scan
  | parse
  | execution
deriving DecidableEq, Repr

/-- An error of the language; the faults of a line may keep the line. -/
inductive LanguageError
  | scan (cause : ScanError) (line : Option String)
  | parse (cause : ParseError)
  | execution (cause : ExecutionError)
  /-- An error known by its message alone, in a category or directly in the one of all errors. -/
  | custom (category : Option ErrorCategory) (text : String) (line : Option String)
deriving DecidableEq, Repr

namespace ScanError

def name : ScanError → String
  | nonAscii => "NonAscii"
  | missingTrailingWhitespace => "MissingTrailingWhitespace"

def message : ScanError → String
  | nonAscii => "non-ASCII input"
  | missingTrailingWhitespace => "missing trailing whitespace"

end ScanError

namespace ParseError

def name : ParseError → String
  | undefinedWord _ => "UndefinedWord"
  | numberOutOfRange _ => "NumberOutOfRange"

def message : ParseError → String
  | undefinedWord name => "undefined word: " ++ name
  | numberOutOfRange text => "number out of range: " ++ text

end ParseError

namespace ExecutionError

def name : ExecutionError → String
  | stackUnderflow => "StackUnderflow"
  | typeMismatch => "TypeMismatch"
  | divisionByZero => "DivisionByZero"

def message : ExecutionError → String
  | stackUnderflow => "stack underflow"
  | typeMismatch => "refusing cast: string->number"
  | divisionByZero => "divisor cannot be zero"

end ExecutionError

namespace ErrorCategory

def root : String := "ForthError"

def name : ErrorCategory → String
  | scan => "ScanError"
  | parse => "ParseError"
  | execution => "ExecutionError"

end ErrorCategory

namespace LanguageError

/-- The name of an error; one without a cause of its own goes by its category. -/
def name : LanguageError → String
  | scan cause _ => cause.name
  | parse cause => cause.name
  | execution cause => cause.name
  | custom (some category) _ _ => category.name
  | custom none _ _ => ErrorCategory.root

/-- The categories above an error, the narrowest first. -/
def lineage : LanguageError → List String
  | scan _ _ => [ErrorCategory.scan.name, ErrorCategory.root]
  | parse _ => [ErrorCategory.parse.name, ErrorCategory.root]
  | execution _ => [ErrorCategory.execution.name, ErrorCategory.root]
  | custom (some _) _ _ => [ErrorCategory.root]
  | custom none _ _ => []

def message : LanguageError → String
  | scan cause _ => cause.message
  | parse cause => cause.message
  | execution cause => cause.message
  | custom _ text _ => text

def line? : LanguageError → Option String
  | scan _ line => line
  | custom _ _ line => line
  | parse _ | execution _ => none

/-- The message, below the quoted line and behind the error's name where a line is kept. -/
def render (error : LanguageError) : String :=
  match error.line? with
  | none => error.message
  | some line => Text.Quoted.encode line ++ "\n" ++ error.name ++ ": " ++ error.message

end LanguageError

end LineForth
