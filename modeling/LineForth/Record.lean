import LineForth.Token

/-! # Records of a run

The steps of a run that a reader may follow, each with the data it shows and the activity it belongs
to. A record is made whether or not anyone reads it, so following a run changes nothing in it.
-/

namespace LineForth

inductive Activity
  | defining
  | scanning
  | resolving
  | executing
  | evaluating
  | conversing
deriving DecidableEq, Repr

/-- What the lines begin with that show the steps of an activity one at a time. -/
def Activity.heading? : Activity → Option String
  | scanning => some "scan: "
  | resolving => some "parse: "
  | executing => some "execute: "
  | defining | evaluating | conversing => none

/-- One step of a run. -/
inductive Record
  /-- The core words were defined, this many of them. -/
  | defined (count : Nat)
  /-- A token was read off a line. -/
  | scanned (token : Token)
  /-- A number was pushed. -/
  | pushed (text : String) (value : Int)
  /-- The operations of a word were queued. -/
  | expanded (text : String) (operations : List Operation)
  /-- An operation succeeded and left this stack. -/
  | applied (operation : Operation) (stack : Stack)
  /-- An operation failed. -/
  | failed (operation : Operation) (error : ExecutionError)
  /-- The token queue after a batch was read. -/
  | batchRead (tokens : List Token)
  /-- The stack and the operation queue after a batch was resolved. -/
  | batchResolved (stack : Stack) (operations : List Operation)
  /-- The stack and the count of operations after a batch was run. -/
  | batchRun (stack : Stack) (count : Nat)
  /-- The stack at the end of a line. -/
  | lineStack (stack : Stack)
  /-- The operations left over at the end of a line. -/
  | lineOperations (operations : List Operation)
  /-- The count of operations at the end of a line. -/
  | lineApplied (count : Nat)
deriving DecidableEq, Repr

namespace Record

def activity : Record → Activity
  | defined _ => .defining
  | scanned _ => .scanning
  | pushed _ _ | expanded _ _ => .resolving
  | applied _ _ | failed _ _ => .executing
  | batchRead _ | batchResolved _ _ | batchRun _ _ => .evaluating
  | lineStack _ | lineOperations _ | lineApplied _ => .conversing

def message : Record → String
  | defined count => "loaded " ++ toString count ++ " core words"
  | scanned token => "scan: \"" ++ token.text ++ "\" -> " ++ token.kind.name
  | pushed text value => "parse: \"" ++ text ++ "\" -> push " ++ toString value
  | expanded text operations => "parse: \"" ++ text ++ "\" -> " ++ Operation.renderAll operations
  | applied operation stack => "execute: " ++ operation.name ++ " -> " ++ stack.render
  | failed operation error => "execute: " ++ operation.name ++ " -> error: " ++ error.message
  | batchRead tokens => "tokens: " ++ Token.renderAll tokens
  | batchResolved stack operations =>
      "data stack: " ++ stack.render ++ ", operations: " ++ Operation.renderAll operations
  | batchRun stack count =>
      "data stack: " ++ stack.render ++ ", ops applied: " ++ toString count
  | lineStack stack => "\tdata stack: " ++ stack.render
  | lineOperations operations => "\toperations: " ++ Operation.renderAll operations
  | lineApplied count => "\tops applied: " ++ toString count

/-- The first letter of the line. It tells the steps of an activity apart from all other lines. -/
private def initial : Record → Char
  | scanned _ => 's'
  | pushed _ _ | expanded _ _ => 'p'
  | applied _ _ | failed _ _ => 'e'
  | defined _ => 'l'
  | batchRead _ => 't'
  | batchResolved _ _ | batchRun _ _ => 'd'
  | lineStack _ | lineOperations _ | lineApplied _ => '\t'

private theorem head?_message (record : Record) :
    record.message.toList.head? = some record.initial := by
  cases record <;> unfold message <;> simp only [String.toList_append, List.append_assoc] <;> rfl

/-- A line that begins with the heading of an activity shows a step of this activity, and all its steps are
shown so. -/
theorem heading_prefix_message_iff {activity : Activity} {heading : String}
    (shown : activity.heading? = some heading) (record : Record) :
    heading.toList <+: record.message.toList ↔ record.activity = activity := by
  constructor
  · rintro ⟨rest, whole⟩
    have first : heading.toList.head? = some record.initial := by
      rw [← head?_message, ← whole]
      cases activity <;> cases shown <;> rfl
    cases activity <;> cases shown <;> cases record <;> simp [initial, Record.activity] at first ⊢
  · rintro rfl
    cases record <;> cases shown <;> unfold message <;> simp

end Record

/-- What the outside may notice of a run. -/
inductive Event
  /-- A text was printed for the user. -/
  | printed (text : String)
  /-- A record was made. -/
  | recorded (record : Record)
deriving DecidableEq, Repr

namespace Event

def output : Event → String
  | printed text => text
  | recorded _ => ""

/-- An event as a reader of the records sees it: each record is a line between what is printed. -/
def verboseOutput : Event → String
  | printed text => text
  | recorded record => record.message ++ "\n"

def record? : Event → Option Record
  | printed _ => none
  | recorded record => some record

end Event

/-- The events of a run in their order. -/
abbrev Trace := List Event

namespace Trace

def output (trace : Trace) : String := String.join (trace.map Event.output)

/-- All that was printed, the records in between. -/
def verboseOutput (trace : Trace) : String := String.join (trace.map Event.verboseOutput)

def records (trace : Trace) : List Record := trace.filterMap Event.record?

end Trace

end LineForth
