import LineForth.Halt
import LineForth.Machine
import LineForth.Record

/-! # Runs

The outcome of an activity on a machine: a value or the halt it stopped at, the machine it leaves
either way, and the trace of what it printed and recorded. A run that halts keeps everything done
before the halt.
-/

namespace LineForth

/-- What an activity comes to. -/
structure Run (α : Type) where
  result : Except Halt α
  machine : Machine
  trace : Trace

namespace Run

variable {α β : Type}

def done (value : α) (machine : Machine) : Run α := ⟨.ok value, machine, []⟩

def halt (cause : Halt) (machine : Machine) : Run α := ⟨.error cause, machine, []⟩

/-- The same run, behind earlier events. -/
def after (earlier : Trace) (run : Run α) : Run α := { run with trace := earlier ++ run.trace }

/-- Continue a run from its value and machine; a halted run does not continue. -/
def andThen (run : Run α) (next : α → Machine → Run β) : Run β :=
  match run.result with
  | .ok value => (next value run.machine).after run.trace
  | .error cause => ⟨.error cause, run.machine, run.trace⟩

/-- Record the machine at the end of a run; a halted run does not come to it. -/
def thenRecord (run : Run α) (record : Machine → Record) : Run α :=
  run.andThen fun value machine => ⟨.ok value, machine, [.recorded (record machine)]⟩

@[simp] theorem after_nil (run : Run α) : run.after [] = run := rfl

@[simp] theorem after_after (first second : Trace) (run : Run α) :
    (run.after second).after first = run.after (first ++ second) := by
  simp [after]

@[simp] theorem andThen_done (value : α) (machine : Machine) (next : α → Machine → Run β) :
    (done value machine).andThen next = next value machine := rfl

@[simp] theorem andThen_after (earlier : Trace) (run : Run α) (next : α → Machine → Run β) :
    (run.after earlier).andThen next = (run.andThen next).after earlier := by
  obtain ⟨result, machine, trace⟩ := run
  cases result <;> simp [after, andThen]

theorem andThen_assoc {γ : Type} (run : Run α) (next : α → Machine → Run β)
    (last : β → Machine → Run γ) :
    (run.andThen next).andThen last =
      run.andThen fun value machine => (next value machine).andThen last := by
  obtain ⟨result, machine, trace⟩ := run
  cases result with
  | ok value => exact andThen_after trace (next value machine) last
  | error cause => rfl

end Run

end LineForth
