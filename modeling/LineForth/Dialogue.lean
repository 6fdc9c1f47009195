import LineForth.Machine.Evaluation
import LineForth.Text.Blank

/-! # The dialogue with the user

Lines are read one after the other behind a prompt, and each is answered on one line: the data stack
if it went well, a message if it broke a rule of the language. Whatever a line left queued is
discarded before the next, so that of a line that fails nothing is left but the stack. Blank lines are
passed over. The dialogue ends at an interrupt, at the end of the input, or at a halt that is no error.
-/

namespace LineForth

namespace Machine

def loadCore (machine : Machine) : Run Unit :=
  ⟨.ok (), machine.defineCore, [.recorded (.defined Dictionary.coreWords.length)]⟩

def closingRecords (machine : Machine) : Trace :=
  [.recorded (.lineStack machine.stack), .recorded (.lineOperations machine.operations),
    .recorded (.lineApplied machine.applied)]

end Machine

def Stack.answer (stack : Stack) : String :=
  (if stack.isEmpty then "ok" else "ok: " ++ stack.contents) ++ "\n"

def LanguageError.answer (cause : LanguageError) : String := "error: " ++ cause.message ++ "\n"

namespace Run

/-- Answer the user: whether the run went well, unless its halt is no error. -/
def answered (run : Run Unit) : Run Bool :=
  match run.result with
  | .ok _ => ⟨.ok true, run.machine, run.trace ++ [.printed run.machine.stack.answer]⟩
  | .error (.error cause) => ⟨.ok false, run.machine, run.trace ++ [.printed cause.answer]⟩
  | .error cause => ⟨.error cause, run.machine, run.trace⟩

/-- End a line, however it went: record the state and discard what is queued. -/
def closed {α : Type} (run : Run α) : Run α :=
  ⟨run.result, run.machine.discardPending, run.trace ++ run.machine.closingRecords⟩

end Run

namespace Machine

/-- Evaluate a line with its terminator, answer it and end it. -/
def runLine (machine : Machine) (line : String) : Run Bool :=
  (machine.evaluate (line ++ "\n")).answered.closed

def respond (machine : Machine) (line : String) : Run Unit :=
  if Text.isBlankText line then .done () machine
  else (machine.runLine line).andThen fun _ next => .done () next

end Machine

inductive Entry
  | line (text : String)
  | interrupt
deriving DecidableEq, Repr

/-- A dialogue that has ended, with the entries that it did not come to. -/
structure Dialogue where
  run : Run Unit
  unread : List Entry

namespace Dialogue

def greeting : String := "Ctrl-C to exit\n\n"

def prompt : String := "< "

/-- The end of a dialogue that the user or the end of the input breaks off at the prompt. -/
def breakOff (machine : Machine) (unread : List Entry) : Dialogue :=
  ⟨⟨.ok (), machine, [.printed prompt, .printed "\n"]⟩, unread⟩

/-- Take entries until the dialogue ends. -/
def converse (machine : Machine) : List Entry → Dialogue
  | [] => breakOff machine []
  | .interrupt :: unread => breakOff machine unread
  | .line text :: unread =>
      let reply := (machine.respond text).after [.printed prompt]
      match reply.result with
      | .ok _ =>
          let later := converse reply.machine unread
          ⟨later.run.after reply.trace, later.unread⟩
      | .error _ => ⟨reply, unread⟩

/-- Take entries after an opening that has not halted. -/
def follow (opening : Run Unit) (entries : List Entry) : Dialogue :=
  let dialogue := converse opening.machine entries
  ⟨dialogue.run.after opening.trace, dialogue.unread⟩

def greet (machine : Machine) : Run Unit := ⟨.ok (), machine, [.printed greeting]⟩

/-- A dialogue on a machine, from the greeting on. -/
def hold (machine : Machine) (entries : List Entry) : Dialogue := follow (greet machine) entries

def holdNew (entries : List Entry) : Dialogue :=
  follow (Machine.empty.loadCore.andThen fun _ machine => greet machine) entries

end Dialogue

end LineForth
