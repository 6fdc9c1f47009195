import LineForth.Machine.Evaluation
import LineForth.Proofs.Interpretation
import LineForth.Proofs.Silence

/-! # Settling a batch

The interpretation of a run is what is left of it without its queues and records. A round without its
reading and its records resolves the tokens of its batch and applies what they ask for
(`Machine.settle`). It leaves nothing queued if it does not halt (`Machine.round_idle`), and no tokens
unless a defect stops it (`Machine.round_drained`).
-/

namespace LineForth

/-- The part of a machine that its runs of graphic characters act on. -/
def Machine.workspace (machine : Machine) : Workspace :=
  ⟨machine.dictionary, machine.stack, machine.applied⟩

structure Machine.Idle (machine : Machine) : Prop where
  tokens : machine.tokens = []
  operations : machine.operations = []

namespace Run

/-- What a run comes to, apart from what is queued and recorded. -/
def interpretation (run : Run Unit) : Interpretation :=
  ⟨run.result, run.machine.workspace, run.trace.output⟩

@[simp] theorem interpretation_silent (run : Run Unit) : run.silent.interpretation = run.interpretation := by
  simp only [interpretation, silent, Trace.output_audible]

theorem interpretation_after_recorded (record : Record) (run : Run Unit) :
    (run.after [.recorded record]).interpretation = run.interpretation := by
  simp [interpretation, after, Trace.output, Event.output]

/-- A run that continues another comes to what it comes to on the workspace that the other leaves. -/
theorem interpretation_andThen {run : Run Unit} {next : Unit → Machine → Run Unit}
    {further : Workspace → Interpretation}
    (agree : run.result = .ok () →
      (next () run.machine).interpretation = further run.machine.workspace) :
    (run.andThen next).interpretation = run.interpretation.andThen further := by
  obtain ⟨result, machine, trace⟩ := run
  cases result with
  | error cause => rfl
  | ok value =>
    have later : (next value machine).interpretation = further machine.workspace := agree rfl
    calc
      ((next value machine).after trace).interpretation
          = { (next value machine).interpretation with
              output := trace.output ++ (next value machine).interpretation.output } := by
        simp only [interpretation, after, Trace.output_append]
      _ = { further machine.workspace with
              output := trace.output ++ (further machine.workspace).output } := by rw [later]

end Run

/-- Unless a defect stops it, the run leaves no token queued. -/
def Run.Drained (run : Run Unit) : Prop :=
  (∀ cause, run.result ≠ .error (.defect cause)) → run.machine.tokens = []

theorem Run.Drained.andThen {run : Run Unit} {next : Unit → Machine → Run Unit} (first : run.Drained)
    (later : run.result = .ok () → run.machine.tokens = [] → (next () run.machine).Drained) :
    (run.andThen next).Drained := by
  obtain ⟨result, machine, trace⟩ := run
  cases result with
  | error cause => exact first
  | ok value => exact later rfl (first (by simp))

theorem Token.meaning_ne_bye (dictionary : Dictionary) (token : Token) :
    token.meaning dictionary ≠ .error .bye := by
  unfold meaning
  split
  · unfold readNumber
    split <;> simp [Except.map, Halt.ofParse]
  · split <;> simp
  · simp [Halt.ofParse]

namespace Machine

/-- An operation queue is applied as operations are. -/
theorem executeAll_interpretation (machine : Machine) (operations : List Operation) :
    (machine.executeAll operations).interpretation =
      Interpretation.ofOperations machine.workspace operations := by
  induction operations generalizing machine with
  | nil => rfl
  | cons operation rest ih =>
    have same : machine.workspace.stack = machine.stack := rfl
    rw [executeAll_cons]
    unfold Interpretation.ofOperations Interpretation.ofOperation
    rw [same]
    cases effect : operation.apply machine.stack with
    | leaves stack =>
      rw [Run.interpretation_after_recorded, ih, Interpretation.done_andThen]
      rfl
    | fails cause => rfl
    | bye => simp [Run.interpretation, Interpretation.andThen, Trace.output, Event.output, workspace]

/-- A round without its reading and its records. -/
def settle (machine : Machine) : Run Unit :=
  machine.resolve.andThen fun _ resolved => resolved.execute

/-- An error of the language clears the token queue, and nothing else but a defect stops resolving. -/
theorem resolveAll_drained (machine : Machine) (tokens : List Token) :
    (machine.resolveAll tokens).Drained := by
  induction tokens generalizing machine with
  | nil => exact fun _ => rfl
  | cons token rest ih =>
    unfold resolveAll
    cases meaning : token.meaning machine.dictionary with
    | ok asked => exact ih (machine.accept asked)
    | error cause =>
      intro sound
      cases cause with
      | error language => rfl
      | defect cause => exact absurd rfl (sound cause)
      | bye => exact absurd meaning (Token.meaning_ne_bye _ _)

theorem executeAll_tokens (machine : Machine) (operations : List Operation) :
    (machine.executeAll operations).machine.tokens = machine.tokens := by
  induction operations generalizing machine with
  | nil => rfl
  | cons operation rest ih =>
    rw [executeAll_cons]
    split
    · exact ih _
    · rfl
    · rfl

theorem executeAll_operations {machine : Machine} {operations : List Operation}
    (success : (machine.executeAll operations).result = .ok ()) :
    (machine.executeAll operations).machine.operations = [] := by
  induction operations generalizing machine with
  | nil => rfl
  | cons operation rest ih =>
    rw [executeAll_cons] at success ⊢
    cases effect : operation.apply machine.stack with
    | leaves stack =>
      rw [effect] at success
      exact ih success
    | _ =>
      rw [effect] at success
      contradiction

theorem settle_drained (machine : Machine) : machine.settle.Drained :=
  (resolveAll_drained machine machine.tokens).andThen fun _ cleared _ =>
    (executeAll_tokens _ _).trans cleared

/-- A batch that does not halt leaves nothing queued. -/
theorem settle_idle {machine : Machine} (success : machine.settle.result = .ok ()) :
    machine.settle.machine.Idle := by
  refine ⟨settle_drained machine fun _ halted => ?_, ?_⟩
  · rw [success] at halted
    contradiction
  · unfold settle at success ⊢
    cases resolved : machine.resolve.result with
    | error cause =>
      rw [Run.andThen, resolved] at success
      contradiction
    | ok value =>
      simp only [Run.andThen, resolved] at success ⊢
      exact executeAll_operations success

/-- The records of a round apart, all that it does is settle its batch. -/
theorem round_silent (machine : Machine) (batch : Batch) :
    (machine.round batch).silent = (machine.queueTokens batch.tokens).settle.silent := by
  have read : (machine.takeIn batch).silent = .done () (machine.queueTokens batch.tokens) := by
    have unheard : Trace.audible (batch.tokens.map (.recorded ∘ .scanned)) = [] := by
      simp [Trace.audible, Event.record?]
    rw [takeIn, Run.silent, unheard]
    rfl
  simp only [round, settle, Run.silent_thenRecord, Run.silent_andThen, read, Run.andThen_done]

/-- A round ends as its batch settles, and leaves the same machine. -/
theorem round_settle (machine : Machine) (batch : Batch) :
    (machine.round batch).result = (machine.queueTokens batch.tokens).settle.result ∧
      (machine.round batch).machine = (machine.queueTokens batch.tokens).settle.machine :=
  ⟨congrArg (·.result) (round_silent machine batch), congrArg (·.machine) (round_silent machine batch)⟩

theorem round_idle {machine : Machine} {batch : Batch}
    (success : (machine.round batch).result = .ok ()) : (machine.round batch).machine.Idle := by
  obtain ⟨result, left⟩ := round_settle machine batch
  rw [left]
  exact settle_idle (result.symm.trans success)

theorem round_drained (machine : Machine) (batch : Batch) : (machine.round batch).Drained := by
  obtain ⟨result, left⟩ := round_settle machine batch
  intro sound
  rw [left]
  exact settle_drained _ fun cause halted => sound cause (result.trans halted)

end Machine

end LineForth
