import LineForth.Proofs.Pending

/-! # Operations in a row

The operation queue is worked off one operation at a time, each on the stack that those before it leave.
Up to the first operation that halts the run is the run of the operations before it, and that operation
itself leaves no mark but that it is gone from the queue (`Machine.execute_applyAll`). So a queue may be
cut anywhere before it: its parts come to the same one after the other.
-/

namespace LineForth

namespace Operation

/-- The effect of operations in a row, each on the stack that the one before it leaves; nothing follows
one that halts. -/
def applyAll : List Operation → Stack → Effect
  | [], stack => .leaves stack
  | operation :: rest, stack =>
      match operation.apply stack with
      | .leaves next => applyAll rest next
      | .fails cause => .fails cause
      | .bye => .bye

/-- The operation at this index is the first that halts, on this stack and for this cause. -/
structure HaltsAt (operations : List Operation) (stack : Stack) (index : Nat) (reached : Stack)
    (cause : Halt) : Prop where
  before : applyAll (operations.take index) stack = .leaves reached
  halts : ∃ operation, operations[index]? = some operation ∧ (operation.apply reached).halt? = some cause

end Operation

/-- The halts of a run of operations. -/
theorem Effect.halt?_eq_some {effect : Effect} {cause : Halt} (halts : effect.halt? = some cause) :
    cause = .bye ∨ ∃ error, cause = .ofExecution error := by
  cases effect with
  | leaves stack => contradiction
  | fails error =>
    cases halts
    exact .inr ⟨error, rfl⟩
  | bye =>
    cases halts
    exact .inl rfl

/-- Operations that are interpreted without a halt leave the stack that they leave in a row, and each of
them is counted. -/
theorem Interpretation.ofOperations_eq_done {workspace reached : Workspace} {operations : List Operation}
    (success : ofOperations workspace operations = .done reached) :
    Operation.applyAll operations workspace.stack = .leaves reached.stack ∧
      reached.applied = workspace.applied + operations.length := by
  induction operations generalizing workspace with
  | nil =>
    cases success
    exact ⟨rfl, rfl⟩
  | cons operation rest ih =>
    unfold ofOperations ofOperation at success
    unfold Operation.applyAll
    cases effect : operation.apply workspace.stack with
    | leaves stack =>
      simp only [effect, done_andThen] at success ⊢
      obtain ⟨left, counted⟩ := ih success
      refine ⟨left, ?_⟩
      rw [counted, List.length_cons, Nat.add_right_comm, Nat.add_assoc]
    | fails cause =>
      rw [effect] at success
      cases success
    | bye =>
      rw [effect] at success
      cases success

namespace Machine

open Operation

/-- Operations that succeed in a row are all counted, and the queue is empty behind them. -/
theorem executeAll_of_leaves {machine : Machine} {operations : List Operation} {stack : Stack}
    (succeed : applyAll operations machine.stack = .leaves stack) :
    (machine.executeAll operations).result = .ok () ∧
      (machine.executeAll operations).machine =
        { machine with
          operations := [], stack := stack, applied := machine.applied + operations.length } := by
  induction operations generalizing machine with
  | nil =>
    cases succeed
    exact ⟨rfl, rfl⟩
  | cons operation rest ih =>
    unfold applyAll at succeed
    rw [executeAll_cons]
    cases effect : operation.apply machine.stack with
    | leaves next =>
      rw [effect] at succeed
      obtain ⟨result, left⟩ := @ih { machine with stack := next, applied := machine.applied + 1 } succeed
      refine ⟨result, left.trans ?_⟩
      rw [List.length_cons, Nat.add_right_comm, Nat.add_assoc]
    | fails cause =>
      rw [effect] at succeed
      contradiction
    | bye =>
      rw [effect] at succeed
      contradiction

/-- Operations that run to their end succeed in a row. -/
theorem applyAll_of_ok {machine : Machine} {operations : List Operation}
    (success : (machine.executeAll operations).result = .ok ()) :
    applyAll operations machine.stack = .leaves (machine.executeAll operations).machine.stack := by
  induction operations generalizing machine with
  | nil => rfl
  | cons operation rest ih =>
    rw [executeAll_cons] at success ⊢
    unfold applyAll
    cases effect : operation.apply machine.stack with
    | leaves next =>
      rw [effect] at success
      exact ih success
    | fails cause =>
      rw [effect] at success
      contradiction
    | bye =>
      rw [effect] at success
      contradiction

/-- Operations behind others that succeed are run on the machine that those leave. -/
theorem executeAll_append {machine : Machine} {front : List Operation}
    (success : (machine.executeAll front).result = .ok ()) (back : List Operation) :
    machine.executeAll (front ++ back) =
      (machine.executeAll front).andThen fun _ next => next.executeAll back := by
  induction front generalizing machine with
  | nil => exact (executeAll_queued machine [] back).symm
  | cons operation rest ih =>
    simp only [List.cons_append, executeAll_cons] at success ⊢
    cases effect : operation.apply machine.stack with
    | leaves next =>
      rw [effect] at success
      rw [Run.andThen_after, ← ih success]
    | fails cause =>
      rw [effect] at success
      contradiction
    | bye =>
      rw [effect] at success
      contradiction

theorem execute_queueOperations {machine : Machine} (free : machine.operations = [])
    (operations : List Operation) :
    (machine.queueOperations operations).execute = machine.executeAll operations := by
  rw [execute, queueOperations, free, List.nil_append]
  exact executeAll_queued machine operations operations

/-- The queued operations are applied in order. If none of them halts, the queue is empty at the end, each
is counted, and the stack is what they leave in a row. Otherwise the first that halts does so by failing
or by taking leave: the operations before it are counted and leave the stack as they do when they are
queued alone, and those behind it stay queued. Nothing else is changed. Where the beginning of a queue
runs to its end, the whole queue comes to the same as that beginning and the rest, queued behind it. -/
theorem execute_applyAll (machine : Machine) :
    let run := machine.execute
    let queue := machine.operations
    (run.result = .ok () → ∃ last, applyAll queue machine.stack = .leaves last ∧
      run.machine =
        { machine with operations := [], stack := last, applied := machine.applied + queue.length }) ∧
    (∀ cause, run.result = .error cause →
      (cause = .bye ∨ ∃ error, cause = .ofExecution error) ∧
      ∃ index reached, HaltsAt queue machine.stack index reached cause ∧
        run.machine =
          { machine with
            operations := queue.drop (index + 1), stack := reached, applied := machine.applied + index } ∧
        { machine with operations := queue.take index }.execute.result = .ok () ∧
        { machine with operations := queue.take index }.execute.machine.stack = reached) ∧
    (∀ front back, queue = front ++ back → { machine with operations := front }.execute.result = .ok () →
      run = { machine with operations := front }.execute.andThen fun _ next =>
        (next.queueOperations back).execute) := by
  intro run queue
  refine ⟨fun success => ?_, fun cause halted => ?_, fun front back split success => ?_⟩
  · have succeed := applyAll_of_ok success
    exact ⟨_, succeed, (executeAll_of_leaves succeed).2⟩
  · obtain ⟨earlier, operation, later, reached, split, success, stops, left⟩ := executeAll_halted halted
    obtain ⟨succeed, counted⟩ := Interpretation.ofOperations_eq_done success
    have front : queue.take earlier.length = earlier := by simp [queue, split]
    have back : queue.drop (earlier.length + 1) = later := by simp [queue, split]
    have here : queue[earlier.length]? = some operation := by simp [queue, split]
    obtain ⟨result, alone⟩ := @executeAll_of_leaves { machine with operations := earlier } earlier _ succeed
    refine ⟨Effect.halt?_eq_some stops, earlier.length, reached.stack,
      ⟨?_, operation, here, stops⟩, ?_, ?_, ?_⟩
    · rw [front]
      exact succeed
    · rw [back, show machine.applied + earlier.length = reached.applied from counted.symm]
      exact left
    · rw [front]
      exact result
    · rw [front]
      exact congrArg Machine.stack alone
  · have begun : { machine with operations := front }.execute = machine.executeAll front :=
      executeAll_queued machine front front
    have whole : run = machine.executeAll (front ++ back) := congrArg machine.executeAll split
    rw [begun] at success ⊢
    rw [whole, executeAll_append success]
    exact Run.andThen_congr fun _ _ => (execute_queueOperations (executeAll_operations success) back).symm

/-- A queue that stops at its third operation: what stands before it was done, and what stands behind it
is left. Cut behind the first operation, it comes to the same. -/
theorem execute_applyAll_stopping :
    let machine : Machine :=
      { empty with
        operations := [.dup, .binary .sub, .binary .add, .nop], stack := [.number 7, .text "below"] }
    machine.execute.result = .error (.ofExecution .typeMismatch) ∧
      machine.execute.machine =
        { machine with operations := [.nop], stack := [.number 0, .text "below"], applied := 2 } ∧
      machine.execute = { machine with operations := [.dup] }.execute.andThen fun _ next =>
        (next.queueOperations [.binary .sub, .binary .add, .nop]).execute := by
  intro machine
  have halted : machine.execute.result = .error (.ofExecution .typeMismatch) := by decide +kernel
  obtain ⟨_, stopped, cut⟩ := execute_applyAll machine
  obtain ⟨_, index, reached, stop, left, _⟩ := stopped _ halted
  have remaining : (machine.operations.drop (index + 1)).length = 1 := by
    rw [show machine.operations.drop (index + 1) = [.nop] from
      (congrArg operations left).symm.trans (by decide +kernel)]
    rfl
  obtain rfl : index = 2 := by
    simp only [List.length_drop, machine, List.length_cons, List.length_nil] at remaining
    omega
  have third : applyAll [.dup, .binary .sub] machine.stack = .leaves [.number 0, .text "below"] := by decide
  obtain rfl := Effect.leaves.inj (stop.before.symm.trans third)
  exact ⟨halted, left, cut [.dup] _ rfl (by decide +kernel)⟩

end Machine

end LineForth
