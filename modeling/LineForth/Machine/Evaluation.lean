import LineForth.Machine.Execution
import LineForth.Machine.Resolution
import LineForth.Machine.Reading

/-! # Evaluating a line

A line is evaluated in rounds. Each round reads one batch of tokens, resolves the token queue and
applies the operation queue, so a word has run before anything behind it is read. The rounds go on
with what each batch leaves of the line, which gets shorter every time, until nothing is left or a
round halts.
-/

namespace LineForth.Machine

/-- One round on a batch that has been cut off the line. -/
def round (machine : Machine) (batch : Batch) : Run Unit :=
  machine.takeIn batch
    |>.thenRecord (fun read => .batchRead read.tokens)
    |>.andThen (fun _ read => read.resolve)
    |>.thenRecord (fun resolved => .batchResolved resolved.stack resolved.operations)
    |>.andThen (fun _ resolved => resolved.execute)
    |>.thenRecord (fun executed => .batchRun executed.stack executed.applied)

def rounds (machine : Machine) : List Char → Run Unit
  | [] => .done () machine
  | c :: text =>
      let batch := Batch.cut machine.dictionary (c :: text)
      (machine.round batch).andThen fun _ next => next.rounds batch.rest
termination_by text => text.length
decreasing_by exact Batch.length_rest_cut_lt machine.dictionary c text

/-- Evaluate a line, which has to be ASCII and to end in a character that is not graphic. -/
def evaluate (machine : Machine) (line : String) : Run Unit :=
  match ScanError.ofLine? line.toList with
  | some cause => .halt (.ofScan cause line) machine
  | none => machine.rounds line.toList

end LineForth.Machine
