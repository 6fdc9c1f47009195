import LineForth.Session

/-! # Invariants of activities

A property of machines that the single activities keep is kept by whatever they are put together to:
a run that continues another, the rounds of a line, an answered line, a session of requests. What is
said is said of the machine that a run leaves, and holds after a halt as well.
-/

namespace LineForth

variable {α β : Type} {P : Machine → Prop}

namespace Run

theorem machine_andThen {run : Run α} {next : α → Machine → Run β} (first : P run.machine)
    (later : ∀ value machine, P machine → P (next value machine).machine) :
    P (run.andThen next).machine := by
  obtain ⟨result, machine, trace⟩ := run
  cases result with
  | ok value => exact later value machine first
  | error cause => exact first

@[simp] theorem machine_andThen_done (run : Run α) (value : α → β) :
    (run.andThen fun result => done (value result)).machine = run.machine := by
  obtain ⟨result, machine, trace⟩ := run
  cases result <;> rfl

@[simp] theorem trace_andThen_done (run : Run α) (value : α → β) :
    (run.andThen fun result => done (value result)).trace = run.trace := by
  obtain ⟨result, machine, trace⟩ := run
  cases result with
  | ok => exact List.append_nil trace
  | error => rfl

@[simp] theorem machine_thenRecord (run : Run α) (record : Machine → Record) :
    (run.thenRecord record).machine = run.machine := by
  obtain ⟨result, machine, trace⟩ := run
  cases result <;> rfl

@[simp] theorem result_thenRecord (run : Run α) (record : Machine → Record) :
    (run.thenRecord record).result = run.result := by
  obtain ⟨result, machine, trace⟩ := run
  cases result <;> rfl

@[simp] theorem machine_answered (run : Run Unit) : run.answered.machine = run.machine := by
  obtain ⟨result, machine, trace⟩ := run
  rcases result with (_ | _ | _) | _ <;> rfl

@[simp] theorem machine_closed (run : Run α) : run.closed.machine = run.machine.discardPending := rfl

end Run

namespace Machine

/-- Resolving leaves the dictionary and the count alone. -/
theorem resolveAll_frame (machine : Machine) (tokens : List Token) :
    (machine.resolveAll tokens).machine.dictionary = machine.dictionary ∧
      (machine.resolveAll tokens).machine.applied = machine.applied := by
  induction tokens generalizing machine with
  | nil => exact ⟨rfl, rfl⟩
  | cons token rest ih =>
    unfold resolveAll
    cases token.meaning machine.dictionary with
    | error cause => exact ⟨rfl, rfl⟩
    | ok meaning => cases meaning <;> exact ih _

/-- Applying operations leaves the dictionary alone and counts up. -/
theorem executeAll_frame (machine : Machine) (operations : List Operation) :
    (machine.executeAll operations).machine.dictionary = machine.dictionary ∧
      machine.applied ≤ (machine.executeAll operations).machine.applied := by
  induction operations generalizing machine with
  | nil => exact ⟨rfl, Nat.le_refl _⟩
  | cons operation rest ih =>
    rw [executeAll_cons]
    cases operation.apply machine.stack with
    | leaves stack =>
      obtain ⟨dictionary, counted⟩ := ih { machine with stack, applied := machine.applied + 1 }
      exact ⟨dictionary, Nat.le_of_succ_le counted⟩
    | fails cause => exact ⟨rfl, Nat.le_refl _⟩
    | bye => exact ⟨rfl, Nat.le_refl _⟩

/-- Reading a batch keeps what queueing its tokens keeps, whatever becomes of the reading. -/
theorem scan_invariant (queued : ∀ machine text, P machine →
      P (machine.queueTokens (Batch.cut machine.dictionary text).tokens))
    {machine : Machine} (initial : P machine) (line : String) (start : Int) :
    P (machine.scan line start).machine := by
  unfold scan
  split
  · exact initial
  · split
    · exact initial
    · next text _ => exact queued machine text initial

/-- A round keeps what resolving and executing keep, if its batch can be queued. -/
theorem round_invariant (resolved : ∀ machine, P machine → P machine.resolve.machine)
    (executed : ∀ machine, P machine → P machine.execute.machine)
    {machine : Machine} {batch : Batch} (queued : P (machine.queueTokens batch.tokens)) :
    P (machine.round batch).machine := by
  simp only [round, Run.machine_thenRecord]
  refine Run.machine_andThen ?_ fun _ machine kept => executed machine kept
  rw [Run.machine_thenRecord]
  refine Run.machine_andThen ?_ fun _ machine kept => resolved machine kept
  rw [Run.machine_thenRecord]
  exact queued

/-- The rounds of a line keep what queueing a batch, resolving and executing keep. -/
theorem rounds_invariant (queued : ∀ machine text, P machine →
      P (machine.queueTokens (Batch.cut machine.dictionary text).tokens))
    (resolved : ∀ machine, P machine → P machine.resolve.machine)
    (executed : ∀ machine, P machine → P machine.execute.machine)
    {machine : Machine} (initial : P machine) (text : List Char) : P (machine.rounds text).machine := by
  fun_induction rounds machine text with
  | case1 machine => exact initial
  | case2 machine c rest batch ih =>
    refine Run.machine_andThen ?_ fun _ next kept => ih next kept
    exact round_invariant resolved executed (queued machine (c :: rest) initial)

theorem evaluate_invariant (queued : ∀ machine text, P machine →
      P (machine.queueTokens (Batch.cut machine.dictionary text).tokens))
    (resolved : ∀ machine, P machine → P machine.resolve.machine)
    (executed : ∀ machine, P machine → P machine.execute.machine)
    {machine : Machine} (initial : P machine) (line : String) : P (machine.evaluate line).machine := by
  unfold evaluate
  split
  · exact initial
  · exact rounds_invariant queued resolved executed initial line.toList

/-- A round leaves the dictionary alone. -/
theorem round_dictionary (machine : Machine) (batch : Batch) :
    (machine.round batch).machine.dictionary = machine.dictionary :=
  round_invariant (P := fun next => next.dictionary = machine.dictionary)
    (fun next kept => (resolveAll_frame next next.tokens).1.trans kept)
    (fun next kept => (executeAll_frame next next.operations).1.trans kept) rfl

/-- Evaluating a line leaves the dictionary alone and counts up. -/
theorem evaluate_frame (machine : Machine) (line : String) :
    (machine.evaluate line).machine.dictionary = machine.dictionary ∧
      machine.applied ≤ (machine.evaluate line).machine.applied := by
  refine evaluate_invariant
    (P := fun next => next.dictionary = machine.dictionary ∧ machine.applied ≤ next.applied)
    (fun _ _ kept => kept) ?_ ?_ ⟨rfl, Nat.le_refl _⟩ line
  · rintro next ⟨dictionary, counted⟩
    obtain ⟨same, unchanged⟩ := resolveAll_frame next next.tokens
    exact ⟨same.trans dictionary, Nat.le_trans counted (Nat.le_of_eq unchanged.symm)⟩
  · rintro next ⟨dictionary, counted⟩
    obtain ⟨same, further⟩ := executeAll_frame next next.operations
    exact ⟨same.trans dictionary, Nat.le_trans counted further⟩

end Machine

/-- The machine that a request leaves. -/
def Step.target (machine : Machine) : Step → Machine
  | scan line start => (machine.scan line start).machine
  | resolve => machine.resolve.machine
  | execute => machine.execute.machine
  | evaluate line => (machine.evaluate line).machine
  | runLine line => (machine.evaluate (line ++ "\n")).machine.discardPending
  | discardPending => machine.discardPending
  | loadCore => machine.defineCore
  | define name operations => machine.define name operations
  | forget name => (machine.forget? name).getD machine
  | queueTokens tokens => machine.queueTokens tokens
  | queueOperations operations => machine.queueOperations operations
  | push cells => machine.push cells
  | setStack cells => machine.setStack cells
  | recordState | showStack | listWords | describe => machine

theorem Step.machine_run (machine : Machine) (step : Step) :
    (step.run machine).machine = step.target machine := by
  cases step with
  | scan | resolve | execute | evaluate => exact Run.machine_andThen_done _ _
  | runLine line =>
    refine (Run.machine_andThen_done _ _).trans ?_
    rw [Machine.runLine, Run.machine_closed, Run.machine_answered]
    rfl
  | loadCore => exact Run.machine_andThen_done machine.loadCore _
  | forget name =>
    simp only [Step.run, Step.target]
    cases machine.forget? name <;> rfl
  | _ => rfl

/-- What every request of a kind keeps is kept by all sessions of such requests. -/
theorem Session.run_invariant {Admitted : Step → Prop}
    (kept : ∀ machine step, Admitted step → P machine → P (step.target machine))
    {machine : Machine} (initial : P machine) {steps : List Step}
    (admitted : ∀ step ∈ steps, Admitted step) :
    ∀ reply ∈ Session.run machine steps, P reply.machine := by
  induction steps generalizing machine with
  | nil => simp [Session.run]
  | cons step rest ih =>
    have first : P (step.run machine).machine := by
      rw [Step.machine_run]
      exact kept machine step (admitted step (List.mem_cons_self ..)) initial
    intro reply member
    rcases List.mem_cons.mp member with rfl | member
    · exact first
    · exact ih first (fun later present => admitted later (List.mem_cons_of_mem _ present)) reply member

end LineForth
