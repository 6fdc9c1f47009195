import LineForth.Proofs.Conduct
import LineForth.Proofs.Pending
import LineForth.Proofs.Work

/-! # The account that records give of a line

A text that was queued or read is resolved, or it is still queued, or it comes behind an error, and the
records show which: none is resolved that was not read, none is passed over, and an error of a word or
number is about the text that comes next (`Run.Conserves`). The texts read are the runs of the line. With
what is known of the operations (`Run.Reports`) this makes the records of an evaluation an account of it
(`Machine.evaluate_records`).
-/

namespace LineForth

open Text

namespace Record

/-- The text that a record shows to have been read off a line. -/
def read? : Record → Option String
  | scanned token => some token.text
  | _ => none

/-- The text that a record shows to have been resolved. -/
def resolved? : Record → Option String
  | pushed text _ | expanded text _ => some text
  | _ => none

theorem read?_eq_none {record : Record} (other : record.activity ≠ .scanning) : record.read? = none := by
  cases record with
  | scanned token => exact absurd rfl other
  | _ => rfl

theorem resolved?_eq_none {record : Record} (other : record.activity ≠ .resolving) :
    record.resolved? = none := by
  cases record with
  | pushed text value => exact absurd rfl other
  | expanded text operations => exact absurd rfl other
  | _ => rfl

/-- The texts read, the texts resolved, and the operations applied or failed are told on the lines with the
heading of their activity, and on no others. -/
theorem told_iff (record : Record) :
    (record.read?.isSome = true ↔ "scan: ".toList <+: record.message.toList) ∧
      (record.resolved?.isSome = true ↔ "parse: ".toList <+: record.message.toList) ∧
      (record.performed?.isSome = true ∨ record.isFailure = true ↔
        "execute: ".toList <+: record.message.toList) := by
  rw [@heading_prefix_message_iff .scanning _ rfl, @heading_prefix_message_iff .resolving _ rfl,
    @heading_prefix_message_iff .executing _ rfl]
  cases record <;> simp [read?, resolved?, performed?, isFailure, activity]

end Record

/-- The text that an error of a word or number is about. -/
def ParseError.subject : ParseError → String
  | undefinedWord name => name
  | numberOutOfRange text => text

namespace Trace

def read (trace : Trace) : List String := trace.records.filterMap Record.read?

def resolved (trace : Trace) : List String := trace.records.filterMap Record.resolved?

theorem read_append (earlier later : Trace) : read (earlier ++ later) = earlier.read ++ later.read := by
  rw [read, records_append, List.filterMap_append]
  rfl

theorem resolved_append (earlier later : Trace) :
    resolved (earlier ++ later) = earlier.resolved ++ later.resolved := by
  rw [resolved, records_append, List.filterMap_append]
  rfl

end Trace

/-- What was queued before the run and what it reads, one behind the other, is what it resolves and what it
leaves queued. A run that halts resolves a beginning of it, and if it is for a word or number, that is the
next text. -/
structure Run.Conserves {α : Type} (queued : List String) (run : Run α) : Prop where
  begun : run.trace.resolved <+: queued ++ run.trace.read
  whole : ∀ value, run.result = .ok value →
    queued ++ run.trace.read = run.trace.resolved ++ run.machine.tokens.map Token.text
  next : ∀ cause, run.result = .error (.ofParse cause) →
    run.trace.resolved ++ [cause.subject] <+: queued ++ run.trace.read

namespace Run.Conserves

variable {α β : Type} {queued : List String} {machine : Machine} {trace : Trace}

/-- A run that reads and resolves nothing leaves the queue as it is. -/
theorem quiet (value : α) (unread : trace.read = []) (unresolved : trace.resolved = []) :
    (⟨.ok value, machine, trace⟩ : Run α).Conserves (machine.tokens.map Token.text) := by
  refine ⟨?_, fun _ _ => ?_, by rintro _ ⟨⟩⟩
  · rw [unresolved]
    exact List.nil_prefix
  · simp only [unread, unresolved, List.append_nil, List.nil_append]

/-- Nothing is asked of a run that resolves nothing and does not stop for a word or number. -/
theorem stop {cause : Halt} (other : ∀ error, cause ≠ .ofParse error) (unresolved : trace.resolved = [])
    (queued : List String) : (⟨.error cause, machine, trace⟩ : Run α).Conserves queued := by
  refine ⟨?_, by rintro _ ⟨⟩, fun error same => ?_⟩
  · rw [unresolved]
    exact List.nil_prefix
  · cases same
    exact absurd rfl (other error)

theorem after {run : Run α} {earlier : Trace} (later : run.Conserves queued) (unread : earlier.read = []) :
    (run.after earlier).Conserves (earlier.resolved ++ queued) := by
  have read : (run.after earlier).trace.read = run.trace.read := by
    rw [Run.after, Trace.read_append, unread, List.nil_append]
  have resolved : (run.after earlier).trace.resolved = earlier.resolved ++ run.trace.resolved :=
    Trace.resolved_append ..
  refine ⟨?_, fun value success => ?_, fun cause halted => ?_⟩
  · rw [read, resolved, List.append_assoc]
    exact (List.prefix_append_right_inj _).mpr later.begun
  · rw [read, resolved, List.append_assoc, List.append_assoc, later.whole value success]
    rfl
  · rw [read, resolved, List.append_assoc, List.append_assoc]
    exact (List.prefix_append_right_inj _).mpr (later.next cause halted)

/-- What one run leaves queued the next one finds. -/
theorem andThen {run : Run α} {next : α → Machine → Run β} (first : run.Conserves queued)
    (later : ∀ value, run.result = .ok value →
      (next value run.machine).Conserves (run.machine.tokens.map Token.text)) :
    (run.andThen next).Conserves queued := by
  obtain ⟨result, machine, trace⟩ := run
  cases result with
  | error cause =>
    exact ⟨first.begun, by rintro _ ⟨⟩, fun error same => first.next error (by cases same; rfl)⟩
  | ok value =>
    obtain ⟨begun, whole, stopped⟩ := later value rfl
    have passed : queued ++ trace.read = trace.resolved ++ machine.tokens.map Token.text :=
      first.whole value rfl
    have read : ((next value machine).after trace).trace.read =
        trace.read ++ (next value machine).trace.read := Trace.read_append ..
    have resolved : ((next value machine).after trace).trace.resolved =
        trace.resolved ++ (next value machine).trace.resolved := Trace.resolved_append ..
    have together : queued ++ ((next value machine).after trace).trace.read =
        trace.resolved ++ (machine.tokens.map Token.text ++ (next value machine).trace.read) := by
      rw [read, ← List.append_assoc, passed, List.append_assoc]
    change ((next value machine).after trace).Conserves queued
    refine ⟨?_, fun result success => ?_, fun cause halted => ?_⟩
    · rw [together, resolved]
      exact (List.prefix_append_right_inj _).mpr begun
    · rw [together, resolved, whole result success, List.append_assoc]
      rfl
    · rw [together, resolved, List.append_assoc]
      exact (List.prefix_append_right_inj _).mpr (stopped cause halted)

/-- The records between the activities are about no text. -/
theorem thenRecord {run : Run α} (conserves : run.Conserves queued) {record : Machine → Record}
    (between : ∀ next, (record next).activity = .evaluating) : (run.thenRecord record).Conserves queued := by
  refine conserves.andThen fun value _ => .quiet value ?_ ?_
  · refine List.filterMap_eq_nil_iff.mpr (List.forall_mem_singleton.mpr (Record.read?_eq_none ?_))
    rw [between]
    decide
  · refine List.filterMap_eq_nil_iff.mpr (List.forall_mem_singleton.mpr (Record.resolved?_eq_none ?_))
    rw [between]
    decide

end Run.Conserves

/-- Nothing is read, and no line is refused. -/
def Conduct.unread : Conduct where
  machine _ := True
  halt cause := ∀ error line, cause ≠ .error (.scan error line)
  record record := record.read? = none

namespace Machine

/-- What is shown of such a line, but for the state after each activity. -/
example : ((empty.defineCore.evaluate "7 0 / DUP\n").trace.records.filter
      (·.activity ≠ .evaluating)).map Record.message =
    ["scan: \"7\" -> NUMBER", "scan: \"0\" -> NUMBER", "scan: \"/\" -> WORD",
      "parse: \"7\" -> push 7", "parse: \"0\" -> push 0", "parse: \"/\" -> [DIV]",
      "execute: DIV -> error: divisor cannot be zero"] := by
  decide +kernel

end Machine

end LineForth
