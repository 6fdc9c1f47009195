import LineForth.Text.Bracketed
import LineForth.Text.Quoted

/-! # Cells of the data stack

A cell holds a number or a text. No word of the language makes a text; a stack that is set up from
outside may hold some, and the numeric operations refuse them.
-/

namespace LineForth

inductive Cell
  | number (value : Int)
  | text (value : String)
deriving DecidableEq, Repr, Inhabited

namespace Cell

/-- The content of a cell alone, as a stack is shown to the user. -/
def content : Cell → String
  | number value => toString value
  | text value => value

/-- A cell with its kind, as it stands in records. -/
def render : Cell → String
  | number value => "NUMBER(" ++ toString value ++ ")"
  | text value => "STRING(" ++ Text.Quoted.encode value ++ ")"

end Cell

/-- A data stack, its top cell first. -/
abbrev Stack := List Cell

namespace Stack

/-- The contents of all cells on one line, the bottom cell first. -/
def contents (stack : Stack) : String := " ".intercalate (stack.reverse.map Cell.content)

/-- The stack as it stands in records, the bottom cell first. -/
def render (stack : Stack) : String := Text.bracketed (stack.reverse.map Cell.render)

end Stack

end LineForth
