import LineForth.Halt
import LineForth.Number.Literal
import LineForth.Token

/-! # What a token means

A number means its value, to be pushed; a word means the operations of its entry, to be queued. The
entry is looked up anew, so a token kept over a change of the dictionary means what its name means
now.
-/

namespace LineForth

/-- What a token asks for. -/
inductive Meaning
  | push (value : Int)
  | queue (operations : List Operation)
deriving DecidableEq, Repr

namespace Token

/-- The number that a text is read as, or why a run stops at it. -/
def readNumber (text : String) : Except Halt Int :=
  match Number.Literal.read text with
  | .ok value => .ok value
  | .error .outOfRange => .error (.ofParse (.numberOutOfRange text))
  | .error (.tooLong digits) => .error (.defect (.tooManyDigits digits))
  | .error .malformed => .error (.defect (.malformedNumber text))

/-- What a token asks for under a dictionary, or why a run stops at it. -/
def meaning (dictionary : Dictionary) (token : Token) : Except Halt Meaning :=
  match token.kind with
  | .number => (readNumber token.text).map .push
  | .word =>
      match dictionary[token.text]? with
      | some operations => .ok (.queue operations)
      | none => .error (.defect (.missingEntry token.text))
  | .undefined => .error (.ofParse (.undefinedWord token.text))

end Token

end LineForth
