import LineForth.Proofs.Agreement
import LineForth.Proofs.Invariant

/-! # Runs on other data

Two machines whose data differ often go through a run side by side. A view says what the stack and
the dictionary of the first machine look like in the second, and shows a whole run of the first: its
machine and the stacks in its records, while its result, its queues, its count and all that it prints
stay (`Run.through`). An activity on the second machine is then what the view shows of the activity on
the first, provided that the operations see through the view (`View.Carries`) and that the words which
are looked up stand for the same in both dictionaries. This is said once for each activity, up to whole
lines (`Machine.evaluate_through`).
-/

namespace LineForth

open Text

/-- What the data of one machine look like in another. -/
structure View where
  stack : Stack → Stack := id
  dictionary : Dictionary → Dictionary := id

namespace View

def machine (view : View) (machine : Machine) : Machine :=
  { machine with
    dictionary := view.dictionary machine.dictionary
    stack := view.stack machine.stack }

def record (view : View) : Record → Record
  | .applied operation stack => .applied operation (view.stack stack)
  | .batchResolved stack operations => .batchResolved (view.stack stack) operations
  | .batchRun stack count => .batchRun (view.stack stack) count
  | .lineStack stack => .lineStack (view.stack stack)
  | record => record

def event (view : View) : Event → Event
  | .printed text => .printed text
  | .recorded record => .recorded (view.record record)

end View

def Effect.map (change : Stack → Stack) : Effect → Effect
  | leaves stack => .leaves (change stack)
  | fails cause => .fails cause
  | bye => .bye

namespace Run

variable {α β : Type}

def through (view : View) (run : Run α) : Run α :=
  ⟨run.result, view.machine run.machine, run.trace.map view.event⟩

@[simp] theorem through_done (view : View) (value : α) (machine : Machine) :
    (done value machine).through view = done value (view.machine machine) := rfl

@[simp] theorem through_after (view : View) (earlier : Trace) (run : Run α) :
    (run.after earlier).through view = (run.through view).after (earlier.map view.event) := by
  simp only [through, after, List.map_append]

/-- A view shows what is printed as it is. -/
theorem output_through (view : View) (run : Run α) :
    (run.through view).trace.output = run.trace.output := by
  simp only [through, Trace.output, List.map_map]
  congr 1
  refine List.map_congr_left fun event _ => ?_
  cases event <;> rfl

/-- What continues a run has to be seen only where the run goes on. -/
theorem andThen_through {view : View} {seen run : Run α} (same : seen = run.through view)
    {next further : α → Machine → Run β}
    (agree : ∀ value, run.result = .ok value →
      further value (view.machine run.machine) = (next value run.machine).through view) :
    seen.andThen further = (run.andThen next).through view := by
  subst same
  obtain ⟨result, machine, trace⟩ := run
  cases result with
  | error cause => rfl
  | ok value =>
    have later : further value (view.machine machine) = (next value machine).through view :=
      agree value rfl
    change (further value (view.machine machine)).after (trace.map view.event) =
      ((next value machine).after trace).through view
    rw [later, through_after]

theorem thenRecord_through {view : View} {seen run : Run α} (same : seen = run.through view)
    {record : Machine → Record}
    (shown : ∀ machine, record (view.machine machine) = view.record (record machine)) :
    seen.thenRecord record = (run.thenRecord record).through view :=
  andThen_through same fun value _ => by simp only [through, shown]; rfl

/-- No operation of the run fails for a cause that is left out of account. -/
def FailsWithin (counted : ExecutionError → Prop) (run : Run α) : Prop :=
  ∀ cause, run.result = .error (.ofExecution cause) → counted cause

namespace FailsWithin

variable {counted : ExecutionError → Prop} {run : Run α} {next : α → Machine → Run β}

theorem first (within : (run.andThen next).FailsWithin counted) : run.FailsWithin counted := by
  intro cause failed
  apply within cause
  rw [andThen, failed]

theorem later (within : (run.andThen next).FailsWithin counted) {value : α}
    (success : run.result = .ok value) : (next value run.machine).FailsWithin counted := by
  intro cause failed
  apply within cause
  rw [andThen, success]
  exact failed

end FailsWithin

end Run

section

variable {view : View} {counted : ExecutionError → Prop}

/-- An operation has on the stack that is seen the effect that is seen, unless it fails for a cause
that is left out of account. What its effect is, each of the two stacks may be told by its own. -/
def View.Carries (view : View) (counted : ExecutionError → Prop)
    (effect shown : Operation → Stack → Effect) (operation : Operation) : Prop :=
  ∀ stack, (∀ cause, effect operation stack = .fails cause → counted cause) →
    shown operation (view.stack stack) = (effect operation stack).map view.stack

/-- The views that evaluation sees through, but for failures that are left out of account. -/
structure View.Transparent (view : View) (counted : ExecutionError → Prop) : Prop where
  push : ∀ value stack,
    view.stack (.number value :: stack) = .number value :: view.stack stack
  carries : ∀ operation, view.Carries counted Operation.apply Operation.apply operation

namespace Machine

/-- Operations that see through a view are applied alike on both sides of it. -/
theorem executeAllBy_through {effect shown : Operation → Stack → Effect} {operations : List Operation}
    (carries : ∀ operation ∈ operations, view.Carries counted effect shown operation)
    {machine : Machine} (within : (machine.executeAllBy effect operations).FailsWithin counted) :
    (view.machine machine).executeAllBy shown operations =
      (machine.executeAllBy effect operations).through view := by
  induction operations generalizing machine with
  | nil => rfl
  | cons operation rest ih =>
    obtain ⟨head, tail⟩ := List.forall_mem_cons.mp carries
    have same : (view.machine machine).stack = view.stack machine.stack := rfl
    unfold executeAllBy at within ⊢
    rw [same]
    cases outcome : effect operation machine.stack with
    | leaves stack =>
      rw [outcome] at within
      rw [head machine.stack (by simp [outcome]), outcome, Run.through_after]
      exact congrArg (Run.after _) (ih tail within)
    | fails cause =>
      rw [outcome] at within
      have accounted : ∀ other, effect operation machine.stack = .fails other → counted other := by
        intro other failed
        rw [outcome] at failed
        cases failed
        exact within cause rfl
      rw [head machine.stack accounted, outcome]
      rfl
    | bye =>
      rw [head machine.stack (by simp [outcome]), outcome]
      rfl

theorem execute_through (transparent : view.Transparent counted) {machine : Machine}
    (within : machine.execute.FailsWithin counted) :
    (view.machine machine).execute = machine.execute.through view :=
  executeAllBy_through (fun operation _ => transparent.carries operation) within

/-- Tokens that mean the same on both sides are resolved alike. -/
theorem resolveAll_through (transparent : view.Transparent counted) {machine : Machine}
    {tokens : List Token}
    (agree : ∀ token ∈ tokens,
      token.meaning (view.dictionary machine.dictionary) = token.meaning machine.dictionary) :
    (view.machine machine).resolveAll tokens = (machine.resolveAll tokens).through view := by
  induction tokens generalizing machine with
  | nil => rfl
  | cons token rest ih =>
    obtain ⟨head, tail⟩ := List.forall_mem_cons.mp agree
    have same : token.meaning (view.machine machine).dictionary = token.meaning machine.dictionary := head
    rw [resolveAll, resolveAll, same]
    cases token.meaning machine.dictionary with
    | error cause => rfl
    | ok meaning =>
      have accepted : (view.machine machine).accept meaning = view.machine (machine.accept meaning) := by
        cases meaning with
        | push value => simp only [accept, View.machine, transparent.push]
        | queue operations => rfl
      have kept : (machine.accept meaning).dictionary = machine.dictionary := by cases meaning <;> rfl
      have further := @ih (machine.accept meaning) (by rwa [kept])
      have shown : view.record (acceptance token meaning) = acceptance token meaning := by
        cases meaning <;> rfl
      simp only [accepted, further, Run.through_after, List.map_cons, List.map_nil, View.event, shown]

/-- A batch whose tokens, with those queued before it, mean the same on both sides is run alike. -/
theorem round_through (transparent : view.Transparent counted) {machine : Machine} {batch : Batch}
    (agree : ∀ token ∈ machine.tokens ++ batch.tokens,
      token.meaning (view.dictionary machine.dictionary) = token.meaning machine.dictionary)
    (within : (machine.round batch).FailsWithin counted) :
    (view.machine machine).round batch = (machine.round batch).through view := by
  have read : (view.machine machine).takeIn batch = (machine.takeIn batch).through view := by
    simp only [takeIn, Run.through, List.map_map]
    rfl
  unfold round at within ⊢
  refine Run.thenRecord_through ?_ fun _ => rfl
  refine Run.andThen_through ?_ fun _ success => execute_through transparent (within.first.later success)
  refine Run.thenRecord_through ?_ fun _ => rfl
  refine Run.andThen_through ?_ fun _ _ => resolveAll_through transparent agree
  exact Run.thenRecord_through read fun _ => rfl

/-- Rounds that begin with tokens which mean the same on both sides go alike as long as the two
dictionaries agree on the words of the text. -/
theorem rounds_through (transparent : view.Transparent counted) {machine : Machine} {text : List Char}
    (closed : Closed text)
    (queued : ∀ token ∈ machine.tokens,
      token.meaning (view.dictionary machine.dictionary) = token.meaning machine.dictionary)
    (agree : machine.dictionary.AgreeOn (view.dictionary machine.dictionary) (graphicRuns text))
    (within : (machine.rounds text).FailsWithin counted) :
    (view.machine machine).rounds text = (machine.rounds text).through view := by
  -- After a round that does not halt no token is queued, and the dictionary is what it was.
  fun_induction rounds machine text with
  | case1 machine => rw [rounds, Run.through_done]
  | case2 machine c rest batch ih =>
    have cut : Batch.cut (view.machine machine).dictionary (c :: rest) = batch :=
      (Batch.cut_congr agree).symm
    obtain ⟨tokens, fewer, behind⟩ := Batch.runs_of_cut machine.dictionary closed
    have meanings : ∀ token ∈ machine.tokens ++ batch.tokens,
        token.meaning (view.dictionary machine.dictionary) = token.meaning machine.dictionary := by
      refine List.forall_mem_append.mpr ⟨queued, fun token member => ?_⟩
      obtain ⟨run, kind⟩ := tokens token member
      rw [kind]
      exact Token.meaning_ofText_congr (agree _ run)
    rw [rounds, cut]
    refine Run.andThen_through (round_through transparent meanings within.first) fun value success => ?_
    have empty : (machine.round batch).machine.tokens = [] := (round_idle success).tokens
    apply ih _ behind
    · rw [empty]
      exact List.forall_mem_nil _
    · rw [round_dictionary]
      exact agree.subset fewer
    · exact within.later success

/-- A line evaluates alike on both sides of a view that evaluation sees through, when the queued tokens
mean the same there and the dictionaries agree on the words of the line. -/
theorem evaluate_through (transparent : view.Transparent counted) {machine : Machine} {line : String}
    (queued : ∀ token ∈ machine.tokens,
      token.meaning (view.dictionary machine.dictionary) = token.meaning machine.dictionary)
    (agree : machine.dictionary.AgreeOn (view.dictionary machine.dictionary) (graphicRuns line.toList))
    (within : (machine.evaluate line).FailsWithin counted) :
    (view.machine machine).evaluate line = (machine.evaluate line).through view := by
  unfold evaluate at within ⊢
  cases refused : ScanError.ofLine? line.toList with
  | some cause => rfl
  | none =>
    rw [refused] at within
    have readable := (ScanError.ofLine?_eq_none_iff line.toList).mp refused
    exact rounds_through transparent readable.closed queued agree within

end Machine

end

end LineForth
