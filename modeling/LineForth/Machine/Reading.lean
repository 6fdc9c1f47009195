import LineForth.Run
import LineForth.Token.Batch

/-! # Reading a line

A line is checked as a whole before anything is read off it: it has to be ASCII, and no graphic
character may stand at its very end, since only what follows a run of graphic characters ends it.
After that one batch of tokens is read from a position and put at the end of the token queue.

A negative position counts from the end of the line; the reading then comes to the end and goes on
from the beginning. No run of graphic characters lies across the two, since none is open at the end of
the line. The position after a batch is counted back from the end of the line, so it can be negative as
well. Positions before the line are refused, and among them those below the least signed word of 64 bits
are told apart.
-/

namespace LineForth

/-- What is wrong with a line as a whole; characters beyond ASCII are noticed first. -/
def ScanError.ofLine? (line : List Char) : Option ScanError :=
  if !line.all Text.isAscii then some .nonAscii
  else if line.getLast?.any Text.isGraphic then some .missingTrailingWhitespace
  else none

namespace Machine

/-- The least number that is a position in any line, the least signed word of 64 bits. -/
def leastPosition : Int := -9223372036854775808

def refuseStart (start : Int) : Defect :=
  if start < leastPosition then .startOutOfReach else .startBeforeLine

/-- The characters that a reading from a position passes over. No reading starts before the first
character; one that starts behind the last has nothing to pass over. -/
def window (line : List Char) (start : Int) : Except Defect (List Char) :=
  if 0 ≤ start then .ok (line.drop start.toNat)
  else if start < -line.length then .error (refuseStart start)
  else .ok (line.drop (line.length + start).toNat ++ line)

/-- Queue the tokens of a batch, recording each. -/
def takeIn (machine : Machine) (batch : Batch) : Run Unit :=
  ⟨.ok (), machine.queueTokens batch.tokens, batch.tokens.map (.recorded ∘ .scanned)⟩

/-- Read one batch of a line from a position on; the value is the position behind the batch. -/
def scan (machine : Machine) (line : String) (start : Int) : Run Int :=
  match ScanError.ofLine? line.toList with
  | some cause => .halt (.ofScan cause line) machine
  | none =>
      match window line.toList start with
      | .error cause => .halt (.defect cause) machine
      | .ok text =>
          let batch := Batch.cut machine.dictionary text
          (machine.takeIn batch).andThen fun _ read =>
            .done (line.length - batch.rest.length) read

end Machine

end LineForth
