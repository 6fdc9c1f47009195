import LineForth.Proofs.Invariant
import LineForth.Proofs.Silence

/-! # The conduct of runs

An invariant says what machine a run may leave. A conduct says besides what the run may stop at and what
it may record; both are settled on the way, by the machines that the run goes through. A conduct that the
single activities keep (`Conduct.Kept`) is kept by whole lines, however they end, and by every request
that makes no other machine by hand (`Conduct.Kept.request`). What requests keep is kept by sessions of
them (`Session.run_keeps`).
-/

namespace LineForth

variable {α β : Type}

/-- What a run may leave, stop at and record. -/
structure Conduct where
  machine : Machine → Prop
  halt : Halt → Prop
  record : Record → Prop

/-- The run leaves, stops at and records nothing but what the conduct allows. -/
structure Run.Keeps (conduct : Conduct) (run : Run α) : Prop where
  machine : conduct.machine run.machine
  halt : ∀ cause, run.result = .error cause → conduct.halt cause
  record : ∀ record ∈ run.trace.records, conduct.record record

namespace Run.Keeps

variable {conduct : Conduct}

theorem done {machine : Machine} (value : α) (allowed : conduct.machine machine) :
    (Run.done value machine).Keeps conduct :=
  ⟨allowed, nofun, nofun⟩

theorem stop {machine : Machine} {cause : Halt} (allowed : conduct.machine machine)
    (stops : conduct.halt cause) : (Run.halt cause machine : Run α).Keeps conduct := by
  refine ⟨allowed, ?_, nofun⟩
  rintro _ ⟨⟩
  exact stops

theorem after {run : Run α} {earlier : Trace} (first : ∀ record ∈ earlier.records, conduct.record record)
    (later : run.Keeps conduct) : (run.after earlier).Keeps conduct := by
  refine ⟨later.machine, later.halt, ?_⟩
  change ∀ record ∈ Trace.records (earlier ++ run.trace), conduct.record record
  rw [Trace.records_append]
  exact List.forall_mem_append.mpr ⟨first, later.record⟩

theorem andThen {run : Run α} {next : α → Machine → Run β} (first : run.Keeps conduct)
    (later : ∀ value machine, conduct.machine machine → (next value machine).Keeps conduct) :
    (run.andThen next).Keeps conduct := by
  obtain ⟨result, machine, trace⟩ := run
  cases result with
  | ok value => exact (later value machine first.machine).after first.record
  | error cause => exact ⟨first.machine, fun _ same => first.halt _ (by cases same; rfl), first.record⟩

/-- The value of a run is of no concern to its conduct. -/
theorem andThen_done {run : Run α} (first : run.Keeps conduct) (value : α → β) :
    (run.andThen fun result => Run.done (value result)).Keeps conduct :=
  first.andThen fun _ _ allowed => .done _ allowed

theorem thenRecord {run : Run α} (first : run.Keeps conduct) {record : Machine → Record}
    (shown : ∀ machine, conduct.record (record machine)) : (run.thenRecord record).Keeps conduct :=
  first.andThen fun _ _ allowed => ⟨allowed, nofun, List.forall_mem_singleton.mpr (shown _)⟩

/-- An answer adds no record, and no cause to stop at. -/
theorem answered {run : Run Unit} (first : run.Keeps conduct) : run.answered.Keeps conduct := by
  obtain ⟨result, machine, trace⟩ := run
  have silent : ∀ text, Trace.records (trace ++ [.printed text]) = trace.records := by
    intro text
    rw [Trace.records_append]
    exact List.append_nil _
  rcases result with (cause | cause | _) | value
  · exact ⟨first.machine, nofun, (silent _).symm ▸ first.record⟩
  · exact ⟨first.machine, fun _ same => first.halt _ (by cases same; rfl), first.record⟩
  · exact ⟨first.machine, fun _ same => first.halt _ (by cases same; rfl), first.record⟩
  · exact ⟨first.machine, nofun, (silent _).symm ▸ first.record⟩

end Run.Keeps

/-- The single activities keep the conduct: reading may queue a batch, and resolving and executing go as
they may. The refusal of a line and the records that show what was read or is there are allowed. -/
structure Conduct.Kept (conduct : Conduct) : Prop where
  queue : ∀ machine text, conduct.machine machine →
    conduct.machine (machine.queueTokens (Batch.cut machine.dictionary text).tokens)
  resolve : ∀ machine, conduct.machine machine → machine.resolve.Keeps conduct
  execute : ∀ machine, conduct.machine machine → machine.execute.Keeps conduct
  discard : ∀ machine, conduct.machine machine → conduct.machine machine.discardPending
  refuse : ∀ cause line, conduct.halt (.ofScan cause line)
  refuseStart : ∀ start, conduct.halt (.defect (Machine.refuseStart start))
  display : ∀ record : Record, record.activity ≠ .resolving → record.activity ≠ .executing →
    conduct.record record

/-- The requests that change the dictionary, the queues or the stack by hand. -/
def Step.Changes : Step → Prop
  | loadCore | define _ _ | forget _ | queueTokens _ | queueOperations _ | push _ | setStack _ => True
  | _ => False

namespace Conduct.Kept

variable {conduct : Conduct} (kept : conduct.Kept)

include kept

theorem closingRecords (machine : Machine) :
    ∀ record ∈ machine.closingRecords.records, conduct.record record := by
  intro record member
  have closing : record.activity = .conversing := by
    have recorded : record = .lineStack machine.stack ∨ record = .lineOperations machine.operations ∨
        record = .lineApplied machine.applied := by
      simpa [Machine.closingRecords, Trace.records, Event.record?] using member
    rcases recorded with rfl | rfl | rfl <;> rfl
  exact kept.display record (by simp [closing]) (by simp [closing])

variable {machine : Machine} (allowed : conduct.machine machine)

include allowed

theorem takeIn (text : List Char) :
    (machine.takeIn (Batch.cut machine.dictionary text)).Keeps conduct := by
  refine ⟨kept.queue machine text allowed, nofun, ?_⟩
  intro record member
  obtain ⟨event, present, shown⟩ := List.mem_filterMap.mp member
  obtain ⟨token, _, rfl⟩ := List.mem_map.mp present
  cases shown
  exact kept.display _ nofun nofun

theorem scan (line : String) (start : Int) : (machine.scan line start).Keeps conduct := by
  unfold Machine.scan
  split
  · exact .stop allowed (kept.refuse _ line)
  · split
    · next cause refused =>
      refine .stop allowed ?_
      unfold Machine.window at refused
      split at refused
      · contradiction
      · split at refused
        · cases refused
          exact kept.refuseStart start
        · contradiction
    · next text _ => exact (kept.takeIn allowed text).andThen_done _

theorem round (text : List Char) :
    (machine.round (Batch.cut machine.dictionary text)).Keeps conduct := by
  refine .thenRecord (.andThen (.thenRecord (.andThen (.thenRecord ?_ ?_) ?_) ?_) ?_) ?_
  · exact kept.takeIn allowed text
  · exact fun _ => kept.display _ nofun nofun
  · exact fun _ => kept.resolve
  · exact fun _ => kept.display _ nofun nofun
  · exact fun _ => kept.execute
  · exact fun _ => kept.display _ nofun nofun

theorem rounds (text : List Char) : (machine.rounds text).Keeps conduct := by
  fun_induction Machine.rounds machine text with
  | case1 machine => exact .done () allowed
  | case2 machine c rest batch ih => exact (kept.round allowed (c :: rest)).andThen fun _ => ih

theorem evaluate (line : String) : (machine.evaluate line).Keeps conduct := by
  unfold Machine.evaluate
  split
  · exact .stop allowed (kept.refuse _ line)
  · exact kept.rounds allowed _

theorem runLine (line : String) : (machine.runLine line).Keeps conduct := by
  have answered := (kept.evaluate allowed (line ++ "\n")).answered
  refine ⟨kept.discard _ answered.machine, answered.halt, ?_⟩
  change ∀ record ∈ Trace.records (_ ++ _), conduct.record record
  rw [Trace.records_append]
  exact List.forall_mem_append.mpr ⟨answered.record, kept.closingRecords _⟩

/-- A request keeps the conduct if the conduct allows the machine that it makes by hand, and the halt at
a name that is not there to be taken out. -/
theorem request {step : Step} (changed : step.Changes → conduct.machine (step.target machine))
    (missed : ∀ name, step = .forget name → conduct.halt (.defect (.missingEntry name))) :
    (step.run machine).Keeps conduct := by
  cases step with
  | scan line start => exact (kept.scan allowed line start).andThen_done _
  | resolve => exact (kept.resolve machine allowed).andThen_done _
  | execute => exact (kept.execute machine allowed).andThen_done _
  | evaluate line => exact (kept.evaluate allowed line).andThen_done _
  | runLine line => exact (kept.runLine allowed line).andThen_done _
  | recordState => exact ⟨allowed, by rintro _ ⟨⟩, kept.closingRecords machine⟩
  | discardPending => exact .done _ (kept.discard machine allowed)
  | loadCore =>
    have loaded : machine.loadCore.Keeps conduct :=
      ⟨changed trivial, by rintro _ ⟨⟩, List.forall_mem_singleton.mpr (kept.display _ nofun nofun)⟩
    exact loaded.andThen fun _ _ defined => .done _ defined
  | forget name =>
    have left := changed trivial
    simp only [Step.run, Step.target] at left ⊢
    cases forgotten : machine.forget? name with
    | some next =>
      rw [forgotten] at left
      exact .done _ left
    | none => exact .stop allowed (missed name rfl)
  | define | queueTokens | queueOperations | push | setStack => exact .done _ (changed trivial)
  | showStack | listWords | describe => exact .done _ allowed

end Conduct.Kept

/-- A conduct that requests of a kind keep is kept by all sessions of such requests. -/
theorem Session.run_keeps {conduct : Conduct} {Admitted : Step → Prop}
    (kept : ∀ machine step, Admitted step → conduct.machine machine →
      (step.run machine).Keeps conduct)
    {machine : Machine} (allowed : conduct.machine machine) {steps : List Step}
    (admitted : ∀ step ∈ steps, Admitted step) :
    ∀ reply ∈ Session.run machine steps, reply.Keeps conduct := by
  induction steps generalizing machine with
  | nil => exact nofun
  | cons step rest ih =>
    obtain ⟨first, later⟩ := List.forall_mem_cons.mp admitted
    have reply := kept machine step first allowed
    exact List.forall_mem_cons.mpr ⟨reply, ih reply.machine later⟩

end LineForth
