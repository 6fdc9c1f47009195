import LineForth.Run
import LineForth.Token.Meaning

/-! # Resolving tokens

Tokens leave the queue in order. A number goes straight onto the data stack and the operations of a
word go to the end of the operation queue. An error of the language clears the token queue; at any
other halt the tokens behind the one at fault stay queued.
-/

namespace LineForth.Machine

/-- Do what a token asks for. -/
def accept (machine : Machine) : Meaning → Machine
  | .push value => { machine with stack := .number value :: machine.stack }
  | .queue operations => machine.queueOperations operations

def acceptance (token : Token) : Meaning → Record
  | .push value => .pushed token.text value
  | .queue operations => .expanded token.text operations

/-- Resolve the given tokens, which are what the token queue holds. -/
def resolveAll (machine : Machine) : List Token → Run Unit
  | [] => .done () { machine with tokens := [] }
  | token :: rest =>
      match token.meaning machine.dictionary with
      | .ok meaning =>
          (resolveAll (machine.accept meaning) rest).after [.recorded (acceptance token meaning)]
      | .error cause =>
          .halt cause { machine with tokens := if cause.isError then [] else rest }

def resolve (machine : Machine) : Run Unit := machine.resolveAll machine.tokens

end LineForth.Machine
