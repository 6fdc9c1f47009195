import LineForth.Run

/-! # Runs without their records

A record is made for whoever follows a run and is not heard by the user. Taking the records out of a
run leaves its result, its machine and all that it prints, and goes together with continuing it.
-/

namespace LineForth

namespace Trace

@[simp] theorem output_append (earlier later : Trace) :
    output (earlier ++ later) = earlier.output ++ later.output := by
  simp only [output, List.map_append, String.join_append]

theorem records_append (earlier later : Trace) :
    records (earlier ++ later) = earlier.records ++ later.records :=
  List.filterMap_append ..

def audible (trace : Trace) : Trace := trace.filter (·.record?.isNone)

@[simp] theorem audible_append (earlier later : Trace) :
    audible (earlier ++ later) = earlier.audible ++ later.audible :=
  List.filter_append ..

@[simp] theorem audible_audible (trace : Trace) : trace.audible.audible = trace.audible := by
  simp only [audible, List.filter_filter, Bool.and_self]

@[simp] theorem output_audible (trace : Trace) : trace.audible.output = trace.output := by
  induction trace with
  | nil => rfl
  | cons event rest ih =>
    simp only [audible, output] at ih
    cases event with
    | printed text =>
      rw [audible, List.filter_cons_of_pos rfl]
      simp only [output, List.map_cons, String.join_cons, ih]
    | recorded record =>
      rw [audible, List.filter_cons_of_neg (by simp [Event.record?])]
      simp only [output, List.map_cons, String.join_cons, ih, Event.output, String.empty_append]

end Trace

namespace Run

variable {α β : Type}

/-- The run as it is without its records. -/
def silent (run : Run α) : Run α := { run with trace := run.trace.audible }

/-- Runs that differ in their records alone end alike, leave the same machine and print the same. -/
theorem agree_of_silent {first second : Run α} (same : first.silent = second.silent) :
    first.result = second.result ∧ first.machine = second.machine ∧
      first.trace.output = second.trace.output := by
  refine ⟨congrArg (·.result) same, congrArg (·.machine) same, ?_⟩
  rw [← Trace.output_audible first.trace, ← Trace.output_audible second.trace]
  exact congrArg (·.trace.output) same

@[simp] theorem silent_after (earlier : Trace) (run : Run α) :
    (run.after earlier).silent = run.silent.after earlier.audible := by
  simp only [silent, after, Trace.audible_append]

theorem silent_andThen (run : Run α) (next : α → Machine → Run β) :
    (run.andThen next).silent = run.silent.andThen fun value machine => (next value machine).silent := by
  obtain ⟨result, machine, trace⟩ := run
  cases result with
  | ok value => exact silent_after trace (next value machine)
  | error cause => rfl

/-- A record is not heard. -/
@[simp] theorem silent_thenRecord (run : Run α) (record : Machine → Record) :
    (run.thenRecord record).silent = run.silent := by
  obtain ⟨result, machine, trace⟩ := run
  cases result with
  | ok value => simp [thenRecord, andThen, after, silent, Trace.audible, Event.record?]
  | error cause => rfl

end Run

end LineForth
