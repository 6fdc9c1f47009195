import LineForth.Dialogue

/-! # Sessions

Every request that can be made of a machine, as one type, so that what holds of all sequences of
requests can be said and shown. A request that halts leaves the machine as the halt left it, and the
session goes on from there.
-/

namespace LineForth

inductive Step
  /-- Read one batch of a line from a position on. -/
  | scan (line : String) (start : Int)
  /-- Resolve the token queue. -/
  | resolve
  /-- Apply the operation queue. -/
  | execute
  /-- Evaluate a line as it stands. -/
  | evaluate (line : String)
  /-- Evaluate a line with its terminator, answer it and end it. -/
  | runLine (line : String)
  /-- Record the state as at the end of a line. -/
  | recordState
  /-- Show the contents of the data stack. -/
  | showStack
  /-- Discard what is queued. -/
  | discardPending
  /-- Define the core words. -/
  | loadCore
  /-- Define one name. -/
  | define (name : String) (operations : List Operation)
  /-- Take one name out of the dictionary. -/
  | forget (name : String)
  /-- List the dictionary in the order of its names. -/
  | listWords
  /-- Put tokens at the end of the token queue. -/
  | queueTokens (tokens : List Token)
  /-- Put operations at the end of the operation queue. -/
  | queueOperations (operations : List Operation)
  /-- Push cells one after the other. -/
  | push (cells : List Cell)
  /-- Replace the data stack by cells, given from the bottom up. -/
  | setStack (cells : List Cell)
  /-- Show the whole state. -/
  | describe

inductive Reply
  | nothing
  | position (value : Int)
  | flag (value : Bool)
  | text (value : String)
  | words (entries : List (String × List Operation))

namespace Step

def run (machine : Machine) : Step → Run Reply
  | scan line start => (machine.scan line start).andThen fun value => .done (.position value)
  | resolve => machine.resolve.andThen fun _ => .done .nothing
  | execute => machine.execute.andThen fun _ => .done .nothing
  | evaluate line => (machine.evaluate line).andThen fun _ => .done .nothing
  | runLine line => (machine.runLine line).andThen fun value => .done (.flag value)
  | recordState => ⟨.ok .nothing, machine, machine.closingRecords⟩
  | showStack => .done (.text machine.stack.contents) machine
  | discardPending => .done .nothing machine.discardPending
  | loadCore => machine.loadCore.andThen fun _ => .done .nothing
  | define name operations => .done .nothing (machine.define name operations)
  | forget name =>
      match machine.forget? name with
      | some next => .done .nothing next
      | none => .halt (.defect (.missingEntry name)) machine
  | listWords => .done (.words machine.dictionary.toList) machine
  | queueTokens tokens => .done .nothing (machine.queueTokens tokens)
  | queueOperations operations => .done .nothing (machine.queueOperations operations)
  | push cells => .done .nothing (machine.push cells)
  | setStack cells => .done .nothing (machine.setStack cells)
  | describe => .done (.text machine.render) machine

end Step

/-- Carry out requests one after the other on one machine. -/
def Session.run (machine : Machine) : List Step → List (Run Reply)
  | [] => []
  | step :: rest =>
      let reply := step.run machine
      reply :: Session.run reply.machine rest

end LineForth
