import LineForth.Proofs.Conduct
import LineForth.Proofs.Effects

/-! # Texts do not come from the language

Literals and results are numbers, and the other operations move cells about, so a stack without texts
stays one, and no operation is refused for the kind of a cell. This holds of every request but those that
bring cells from outside, at whatever the requests before it halted, and of the lines of a dialogue as
well, whose errors are answered: no operation in them is on record as refused for that cause
(`Session.stack_numeric`).
-/

namespace LineForth

namespace Operation

variable {operation : Operation} {stack : Stack} (numeric : stack.Numeric)

include numeric

/-- Among numbers, the kind of a cell is no cause for an operation to fail. -/
theorem apply_ne_typeMismatch : operation.apply stack ≠ .fails .typeMismatch := by
  rcases Nat.lt_or_ge stack.length operation.need with short | enough
  · simp [apply_of_short short]
  · cases fares_of_numeric numeric enough with
    | leaves _ effect => simp [effect]
    | divides _ effect => simp [effect]
    | succeeds _ _ effect => simp [effect]

theorem numeric_of_apply {next : Stack} (effect : operation.apply stack = .leaves next) :
    next.Numeric := by
  rcases Nat.lt_or_ge stack.length operation.need with short | enough
  · rw [apply_of_short short] at effect
    contradiction
  · cases fares_of_numeric numeric enough with
    | leaves _ other =>
      rw [other] at effect
      contradiction
    | divides _ other =>
      rw [other] at effect
      contradiction
    | succeeds _ _ other kept =>
      rw [other] at effect
      cases effect
      exact kept

end Operation

/-- Resolving stops at no fault of an operation. -/
theorem Token.meaning_ne_execution (dictionary : Dictionary) (token : Token) (cause : ExecutionError) :
    token.meaning dictionary ≠ .error (.ofExecution cause) := by
  unfold meaning
  split
  · unfold readNumber
    split <;> simp [Except.map, Halt.ofParse, Halt.ofExecution]
  · split <;> simp [Halt.ofExecution]
  · simp [Halt.ofParse, Halt.ofExecution]

/-- No text is left on the stack, and no operation is refused for the kind of a cell. -/
def Conduct.numeric : Conduct where
  machine machine := machine.stack.Numeric
  halt cause := cause ≠ .ofExecution .typeMismatch
  record record := ∀ operation, record ≠ .failed operation .typeMismatch

namespace Machine

theorem resolveAll_numeric {machine : Machine} (numeric : machine.stack.Numeric) (tokens : List Token) :
    (machine.resolveAll tokens).Keeps .numeric := by
  induction tokens generalizing machine with
  | nil => exact .done () numeric
  | cons token rest ih =>
    unfold resolveAll
    cases meant : token.meaning machine.dictionary with
    | ok meaning =>
      cases meaning with
      | push value =>
        have pushed : (machine.accept (.push value)).stack.Numeric :=
          Stack.numeric_cons.mpr ⟨⟨value, rfl⟩, numeric⟩
        exact (ih pushed).after (List.forall_mem_singleton.mpr (by rintro _ ⟨⟩))
      | queue operations =>
        exact (@ih (machine.accept (.queue operations)) numeric).after
          (List.forall_mem_singleton.mpr (by rintro _ ⟨⟩))
    | error cause =>
      refine .stop numeric ?_
      rintro rfl
      exact Token.meaning_ne_execution _ _ _ meant

theorem executeAll_numeric {machine : Machine} (numeric : machine.stack.Numeric)
    (operations : List Operation) : (machine.executeAll operations).Keeps .numeric := by
  induction operations generalizing machine with
  | nil => exact .done () numeric
  | cons operation rest ih =>
    rw [executeAll_cons]
    cases effect : operation.apply machine.stack with
    | leaves stack =>
      have next := @ih { machine with stack, applied := machine.applied + 1 }
        (Operation.numeric_of_apply numeric effect)
      exact next.after (List.forall_mem_singleton.mpr (by rintro _ ⟨⟩))
    | fails cause =>
      have sound : cause ≠ .typeMismatch := by
        rintro rfl
        exact Operation.apply_ne_typeMismatch numeric effect
      refine ⟨numeric, ?_, List.forall_mem_singleton.mpr ?_⟩
      · rintro _ ⟨⟩ same
        cases same
        exact sound rfl
      · rintro _ ⟨⟩
        exact sound rfl
    | bye => exact ⟨numeric, by rintro _ ⟨⟩ ⟨⟩, List.forall_mem_nil _⟩

end Machine

theorem Conduct.numeric_kept : Conduct.numeric.Kept where
  queue _ _ numeric := numeric
  resolve machine numeric := Machine.resolveAll_numeric numeric machine.tokens
  execute machine numeric := Machine.executeAll_numeric numeric machine.operations
  discard _ numeric := numeric
  refuse _ _ := by rintro ⟨⟩
  refuseStart _ := by rintro ⟨⟩
  display record _ other := by
    rintro operation rfl
    exact other rfl

/-- The requests that bring no text onto the stack: all but those that push or set cells, and these if
the cells are numbers. -/
def Step.BringsNoText : Step → Prop
  | push cells | setStack cells => Stack.Numeric cells
  | _ => True

theorem Step.run_numeric {machine : Machine} {step : Step} (admitted : step.BringsNoText)
    (numeric : machine.stack.Numeric) : (step.run machine).Keeps .numeric := by
  refine Conduct.numeric_kept.request numeric (fun changes => ?_) (by rintro _ _ ⟨⟩)
  change (step.target machine).stack.Numeric
  cases step with
  | loadCore => simpa only [target, Machine.defineCore] using numeric
  | define name operations => simpa only [target, Machine.define] using numeric
  | forget name =>
    simp only [target, Machine.forget?]
    split <;> exact numeric
  | push cells =>
    intro cell member
    rcases List.mem_append.mp member with pushed | below
    · exact admitted cell (List.mem_reverse.mp pushed)
    · exact numeric cell below
  | setStack cells =>
    intro cell member
    exact admitted cell (List.mem_reverse.mp member)
  | queueTokens | queueOperations => exact numeric
  | _ => exact changes.elim

/-- Over a whole session that begins without texts on the stack, halts of every kind included, there is
never one, no request halts at an operation that is refused for the kind of a cell, and none records
such a refusal. -/
theorem Session.stack_numeric {machine : Machine} (numeric : machine.stack.Numeric) {steps : List Step}
    (admitted : ∀ step ∈ steps, step.BringsNoText) :
    ∀ reply ∈ Session.run machine steps,
      (∀ cell ∈ reply.machine.stack, ∃ value, cell = .number value) ∧
        reply.result ≠ .error (.ofExecution .typeMismatch) ∧
        ∀ operation, .failed operation .typeMismatch ∉ reply.trace.records := by
  intro reply member
  have keeps : reply.Keeps .numeric :=
    Session.run_keeps (fun _ _ => Step.run_numeric) numeric admitted reply member
  refine ⟨keeps.machine, fun halted => keeps.halt _ halted rfl, fun operation recorded => ?_⟩
  exact keeps.record _ recorded operation rfl

/-- A session that runs short, divides by zero, misses an entry, reads a token queued by hand as a number
and takes leave. -/
theorem Session.stack_numeric_halting :
    let machine := Machine.empty.defineCore.push [.number 5]
    let steps : List Step := [.runLine "0 / 1", .evaluate "+ DROP DROP +\n",
      .define "TWICE" [.dup, .binary .add], .scan "3 TWICE 4\n" 0, .forget "TWICE", .resolve,
      .queueTokens [⟨" -7 ", .number⟩], .resolve, .queueOperations [.unary .abs, .bye, .binary .mul],
      .execute, .discardPending, .loadCore]
    machine.stack.Numeric ∧ (∀ step ∈ steps, step.BringsNoText) ∧
      (∀ reply ∈ Session.run machine steps,
        (∀ cell ∈ reply.machine.stack, ∃ value, cell = .number value) ∧
          reply.result ≠ .error (.ofExecution .typeMismatch) ∧
          ∀ operation, .failed operation .typeMismatch ∉ reply.trace.records) ∧
      ((Session.run machine steps).map (·.machine.stack)).getLast? =
        some [.number 7, .number 3] := by
  intro machine steps
  have numeric : machine.stack.Numeric := List.forall_mem_singleton.mpr ⟨5, rfl⟩
  have admitted : ∀ step ∈ steps, step.BringsNoText := by simp [steps, Step.BringsNoText]
  exact ⟨numeric, admitted, Session.stack_numeric numeric admitted, by decide +kernel⟩

end LineForth
