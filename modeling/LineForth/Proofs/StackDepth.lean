import LineForth.Machine.Execution
import LineForth.Proofs.Effects

/-! # The depth of the stack is known beforehand

What operations need and change is added up along a queue without regard to what the stack holds. On a
stack of numbers this decides whether the stack runs short, and at which operation, unless a division by
zero or leave-taking comes first (`Machine.execute_depth`). Operations that can do neither complete if
and only if the stack is deep enough for the most demanding of them.
-/

namespace LineForth

namespace Operation

/-- The depth behind operations, each of which changes it in turn. -/
def depthAfter (depth : Int) (operations : List Operation) : Int :=
  operations.foldl (fun depth operation => depth + operation.change) depth

/-- The operation at this index finds fewer cells than it needs, going by the changes before it. -/
def ShortAt (depth : Int) (operations : List Operation) (index : Nat) : Prop :=
  ∃ operation, operations[index]? = some operation ∧
    depthAfter depth (operations.take index) < operation.need

/-- The operation at this index is the first that finds fewer cells than it needs. -/
structure FirstShort (depth : Int) (operations : List Operation) (index : Nat) : Prop where
  short : ShortAt depth operations index
  first : ∀ earlier < index, ¬ ShortAt depth operations earlier

theorem shortAt_iff (depth : Int) (operations : List Operation) (index : Nat) :
    ShortAt depth operations index ↔
      operations[index]?.any fun operation => depthAfter depth (operations.take index) < operation.need := by
  simp [ShortAt, Option.any_eq_true]

instance (depth : Int) (operations : List Operation) (index : Nat) :
    Decidable (ShortAt depth operations index) :=
  decidable_of_iff _ (shortAt_iff depth operations index).symm

instance (depth : Int) (operations : List Operation) (index : Nat) :
    Decidable (FirstShort depth operations index) :=
  decidable_of_iff (ShortAt depth operations index ∧ ∀ earlier < index, ¬ ShortAt depth operations earlier)
    ⟨fun both => ⟨both.1, both.2⟩, fun first => ⟨first.short, first.first⟩⟩

/-- What each operation demands of the depth that its predecessors start from. -/
def demands (operations : List Operation) : List Int :=
  operations.mapIdx fun index operation => operation.need - depthAfter 0 (operations.take index)

section Indices

variable (depth : Int) (operation : Operation) (rest : List Operation)

theorem depthAfter_cons :
    depthAfter depth (operation :: rest) = depthAfter (depth + operation.change) rest := rfl

theorem depthAfter_eq_add (operations : List Operation) :
    depthAfter depth operations = depth + depthAfter 0 operations := by
  induction operations generalizing depth with
  | nil => exact (Int.add_zero depth).symm
  | cons operation rest ih =>
    rw [depthAfter_cons, depthAfter_cons, ih, ih (0 + operation.change)]
    omega

theorem shortAt_zero : ShortAt depth (operation :: rest) 0 ↔ depth < operation.need := by
  simp [ShortAt, depthAfter]

theorem shortAt_succ (index : Nat) :
    ShortAt depth (operation :: rest) (index + 1) ↔ ShortAt (depth + operation.change) rest index :=
  Iff.rfl

end Indices

/-- A depth meets the demands of all operations when none of them is short at it. -/
theorem forall_demands_le_iff {depth : Int} {operations : List Operation} :
    (∀ demand ∈ demands operations, demand ≤ depth) ↔ ∀ index, ¬ ShortAt depth operations index := by
  constructor
  · rintro met index ⟨operation, present, short⟩
    obtain ⟨inside, rfl⟩ := List.getElem?_eq_some_iff.mp present
    have demand := met _ (List.mem_mapIdx.mpr ⟨index, inside, rfl⟩)
    rw [depthAfter_eq_add] at short
    omega
  · intro never demand member
    obtain ⟨index, inside, rfl⟩ := List.mem_mapIdx.mp member
    by_contra more
    refine never index ⟨operations[index], List.getElem?_eq_getElem inside, ?_⟩
    rw [depthAfter_eq_add]
    omega

/-- It is enough to meet the greatest of the demands. -/
theorem max?_demands_le_iff {depth : Int} {operations : List Operation} :
    (∀ greatest ∈ (demands operations).max?, greatest ≤ depth) ↔
      ∀ index, ¬ ShortAt depth operations index := by
  rw [← forall_demands_le_iff]
  cases greatest : (demands operations).max? with
  | none => simp [List.max?_eq_none_iff.mp greatest]
  | some demand => simp [List.max?_le_iff greatest]

theorem FirstShort.unique {depth : Int} {operations : List Operation} {first second : Nat}
    (left : FirstShort depth operations first) (right : FirstShort depth operations second) :
    first = second := by
  rcases Nat.lt_trichotomy first second with before | same | behind
  · exact absurd left.short (right.first first before)
  · exact same
  · exact absurd right.short (left.first second behind)

end Operation

namespace Machine

open Operation

/-- The operation at this index takes leave, or it divides by zero when its turn comes, those before it
having succeeded. -/
def EndsAt (machine : Machine) (operations : List Operation) (index : Nat) : Prop :=
  ∃ operation, operations[index]? = some operation ∧
    (operation = .bye ∨
      (machine.executeAll (operations.take index)).result = .ok () ∧
        operation.DividesByZero (machine.executeAll (operations.take index)).machine.stack)

theorem endsAt_zero (machine : Machine) (operation : Operation) (rest : List Operation) :
    machine.EndsAt (operation :: rest) 0 ↔ operation = .bye ∨ operation.DividesByZero machine.stack := by
  simp [EndsAt, executeAll, executeAllBy, Run.done]

theorem endsAt_succ {machine : Machine} {operation : Operation} {stack : Stack}
    (effect : operation.apply machine.stack = .leaves stack) (rest : List Operation) (index : Nat) :
    machine.EndsAt (operation :: rest) (index + 1) ↔
      { machine with stack := stack, applied := machine.applied + 1 }.EndsAt rest index := by
  simp only [EndsAt, List.getElem?_cons_succ, List.take_succ_cons, executeAll_cons, effect, Run.after]

/-- The ways in which a run of operations ends on a machine whose stack holds numbers alone. -/
inductive Outcome (machine : Machine) (operations : List Operation) (run : Run Unit) : Prop
  /-- None of the operations runs short, and they all succeed. -/
  | completes :
      (∀ index, ¬ ShortAt machine.stack.length operations index) →
      run.result = .ok () →
      (run.machine.stack.length : Int) = depthAfter machine.stack.length operations →
      Outcome machine operations run
  /-- One of them runs short before any ends the run in another way. -/
  | runsShort (index : Nat) :
      FirstShort machine.stack.length operations index →
      (∀ earlier < index, ¬ machine.EndsAt operations earlier) →
      run.result = .error (.ofExecution .stackUnderflow) →
      (run.machine.stack.length : Int) =
        depthAfter machine.stack.length (operations.take index) →
      run.machine.operations = operations.drop (index + 1) →
      run.machine.applied = machine.applied + index →
      Outcome machine operations run
  /-- One of them takes leave or divides by zero before any runs short. -/
  | ends (index : Nat) :
      machine.EndsAt operations index →
      (∀ earlier ≤ index, ¬ ShortAt machine.stack.length operations earlier) →
      run.result = .error .bye ∨ run.result = .error (.ofExecution .divisionByZero) →
      Outcome machine operations run

namespace Outcome

/-- Behind an operation that succeeds, the outcome is that of the operations behind it. -/
theorem cons {machine : Machine} {operation : Operation} {stack : Stack} {rest : List Operation}
    (effect : operation.apply machine.stack = .leaves stack)
    (enough : operation.need ≤ machine.stack.length) (goesOn : ¬ machine.EndsAt (operation :: rest) 0)
    (depth : (stack.length : Int) = machine.stack.length + operation.change) {run : Run Unit}
    (later : { machine with stack := stack, applied := machine.applied + 1 }.Outcome rest run)
    (earlier : Trace) : machine.Outcome (operation :: rest) (run.after earlier) := by
  have head : ¬ ShortAt machine.stack.length (operation :: rest) 0 := by
    rw [shortAt_zero]
    omega
  cases later with
  | completes never result last =>
    rw [depth] at never last
    refine .completes (fun index => ?_) result last
    cases index with
    | zero => exact head
    | succ index =>
      rw [shortAt_succ]
      exact never index
  | runsShort index short first result last left counted =>
    rw [depth] at short last
    refine .runsShort (index + 1) ⟨(shortAt_succ ..).mpr short.short, fun before less => ?_⟩
      (fun before less => ?_) result last left ?_
    · cases before with
      | zero => exact head
      | succ before =>
        rw [shortAt_succ]
        exact short.first before (Nat.lt_of_succ_lt_succ less)
    · cases before with
      | zero => exact goesOn
      | succ before =>
        rw [endsAt_succ effect]
        exact first before (Nat.lt_of_succ_lt_succ less)
    · rw [Nat.add_comm index 1, ← Nat.add_assoc]
      exact counted
  | ends index ends never result =>
    rw [depth] at never
    refine .ends (index + 1) ((endsAt_succ effect rest index).mpr ends) (fun before less => ?_) result
    cases before with
    | zero => exact head
    | succ before =>
      rw [shortAt_succ]
      exact never before (Nat.le_of_succ_le_succ less)

variable {machine : Machine} {operations : List Operation} {run : Run Unit}
  (outcome : machine.Outcome operations run)

include outcome

theorem result_ne_typeMismatch : run.result ≠ .error (.ofExecution .typeMismatch) := by
  cases outcome with
  | completes _ result => simp [result]
  | runsShort _ _ _ result => simp [result, Halt.ofExecution]
  | ends _ _ _ result => rcases result with result | result <;> simp [result, Halt.ofExecution]

theorem runsShort_iff :
    run.result = .error (.ofExecution .stackUnderflow) ↔
      ∃ index, FirstShort machine.stack.length operations index ∧
        ∀ earlier < index, ¬ machine.EndsAt operations earlier := by
  cases outcome with
  | completes never result =>
    refine iff_of_false (by simp [result]) ?_
    rintro ⟨index, short, _⟩
    exact never index short.short
  | runsShort index short first result => exact iff_of_true result ⟨index, short, first⟩
  | ends index ends never result =>
    refine iff_of_false ?_ ?_
    · rcases result with result | result <;> simp [result, Halt.ofExecution]
    · rintro ⟨other, short, first⟩
      rcases Nat.lt_or_ge index other with before | behind
      · exact first index before ends
      · exact never other behind short.short

/-- What is left where the stack runs short. -/
theorem left_of_runsShort (failed : run.result = .error (.ofExecution .stackUnderflow)) {index : Nat}
    (short : FirstShort machine.stack.length operations index) :
    (run.machine.stack.length : Int) = depthAfter machine.stack.length (operations.take index) ∧
      run.machine.operations = operations.drop (index + 1) ∧
      run.machine.applied = machine.applied + index := by
  cases outcome with
  | completes never => exact absurd short.short (never index)
  | runsShort other first _ _ last left counted =>
    obtain rfl := first.unique short
    exact ⟨last, left, counted⟩
  | ends _ _ _ result => rcases result with result | result <;> simp [result, Halt.ofExecution] at failed

theorem length_of_ok (success : run.result = .ok ()) :
    (run.machine.stack.length : Int) = depthAfter machine.stack.length operations := by
  cases outcome with
  | completes _ _ last => exact last
  | runsShort _ _ _ result => simp [result] at success
  | ends _ _ _ result => rcases result with result | result <;> simp [result] at success

/-- Operations that can neither take leave nor divide by zero complete or run short, and which of the
two is seen from their demands. -/
theorem of_never_ends (never : ∀ index, ¬ machine.EndsAt operations index) :
    (run.result = .ok () ∨ run.result = .error (.ofExecution .stackUnderflow)) ∧
      (run.result = .ok () ↔ ∀ greatest ∈ (demands operations).max?, greatest ≤ machine.stack.length) := by
  rw [max?_demands_le_iff]
  cases outcome with
  | completes plenty result => exact ⟨.inl result, iff_of_true result plenty⟩
  | runsShort index short _ result =>
    exact ⟨.inr result, iff_of_false (by simp [result]) fun plenty => plenty index short.short⟩
  | ends index ends => exact absurd ends (never index)

end Outcome

theorem executeAll_outcome {machine : Machine} (numeric : machine.stack.Numeric)
    (operations : List Operation) : machine.Outcome operations (machine.executeAll operations) := by
  induction operations generalizing machine with
  | nil => exact .completes (by simp [ShortAt]) rfl rfl
  | cons operation rest ih =>
    rw [executeAll_cons]
    by_cases short : machine.stack.length < operation.need
    · have head : ShortAt machine.stack.length (operation :: rest) 0 := by
        rw [shortAt_zero]
        omega
      rw [apply_of_short short]
      exact .runsShort 0 ⟨head, by simp⟩ (by simp) rfl rfl rfl rfl
    · have enough : operation.need ≤ machine.stack.length := Nat.not_lt.mp short
      have head : ∀ earlier ≤ 0, ¬ ShortAt machine.stack.length (operation :: rest) earlier := by
        intro earlier first
        obtain rfl := Nat.le_zero.mp first
        rw [shortAt_zero]
        omega
      cases fares_of_numeric numeric enough with
      | leaves leave effect =>
        rw [effect]
        exact .ends 0 ((endsAt_zero ..).mpr (.inl leave)) head (.inl rfl)
      | divides fault effect =>
        rw [effect]
        exact .ends 0 ((endsAt_zero ..).mpr (.inr fault)) head (.inr rfl)
      | succeeds stays sound effect numbers depth =>
        rw [effect]
        have goesOn : ¬ machine.EndsAt (operation :: rest) 0 := by
          rw [endsAt_zero]
          exact not_or.mpr ⟨stays, sound⟩
        exact .cons effect enough goesOn depth (ih numbers) _

/-- Operations among which there are no leave-taking, no quotient and no remainder end nowhere. -/
theorem not_endsAt {machine : Machine} {operations : List Operation}
    (plain : ∀ operation ∈ operations,
      operation ≠ .bye ∧ operation ≠ .binary .div ∧ operation ≠ .binary .mod) (index : Nat) :
    ¬ machine.EndsAt operations index := by
  rintro ⟨operation, present, ends⟩
  obtain ⟨stays, quotient, remainder⟩ := plain operation (List.mem_of_getElem? present)
  rcases ends with leaves | ⟨_, function, rfl, rfl | rfl, _⟩
  · exact stays leaves
  · exact quotient rfl
  · exact remainder rfl

/-- On a stack of numbers the needs and changes of the queued operations decide what they come to. No
kind is ever wrong. The stack runs short if and only if some operation finds fewer cells than it needs
and none before the first of those takes leave or divides by zero at its turn; then it runs short at
that first one, with the cells it finds left on the stack. Operations that all succeed leave as many
cells as their changes add up to. Without leave-taking, quotients and remainders, they all succeed if
and only if the depth they begin with is at least the greatest of their demands. -/
theorem execute_depth {machine : Machine} (numeric : machine.stack.Numeric) :
    let run := machine.execute
    let depth : Int := machine.stack.length
    let operations := machine.operations
    run.result ≠ .error (.ofExecution .typeMismatch) ∧
    (run.result = .error (.ofExecution .stackUnderflow) ↔
      ∃ index, FirstShort depth operations index ∧
        ∀ earlier < index, ¬ machine.EndsAt operations earlier) ∧
    (run.result = .error (.ofExecution .stackUnderflow) → ∀ index, FirstShort depth operations index →
      (run.machine.stack.length : Int) = depthAfter depth (operations.take index) ∧
      run.machine.operations = operations.drop (index + 1) ∧
      run.machine.applied = machine.applied + index) ∧
    (run.result = .ok () → (run.machine.stack.length : Int) = depthAfter depth operations) ∧
    ((∀ operation ∈ operations,
        operation ≠ .bye ∧ operation ≠ .binary .div ∧ operation ≠ .binary .mod) →
      (run.result = .ok () ↔ ∀ greatest ∈ (demands operations).max?, greatest ≤ depth)) := by
  intro run depth operations
  have outcome : machine.Outcome operations run := executeAll_outcome numeric operations
  exact ⟨outcome.result_ne_typeMismatch, outcome.runsShort_iff,
    fun failed _ short => outcome.left_of_runsShort failed short, outcome.length_of_ok,
    fun plain => (outcome.of_never_ends (not_endsAt plain)).2⟩

/-- Five operations on one number: the fourth is the first that finds too few cells. A depth of two,
which is the greatest of their demands, would have been enough. -/
theorem execute_depth_short :
    let machine : Machine :=
      { empty with
        operations := [.dup, .binary .mul, .unary .negate, .binary .sub, .nop], stack := [.number 3] }
    machine.stack.Numeric ∧ FirstShort 1 machine.operations 3 ∧
      machine.execute.result = .error (.ofExecution .stackUnderflow) ∧
      machine.execute.machine.stack.length = (1 : Int) ∧ machine.execute.machine.operations = [.nop] ∧
      machine.execute.machine.applied = 3 ∧ demands machine.operations = [1, 1, 1, 2, 1] := by
  intro machine
  have numeric : machine.stack.Numeric := Stack.numeric_cons.mpr ⟨⟨3, rfl⟩, List.forall_mem_nil _⟩
  have short : FirstShort 1 machine.operations 3 := by decide
  have result : machine.execute.result = .error (.ofExecution .stackUnderflow) := by decide +kernel
  obtain ⟨_, _, stopped, _, _⟩ := execute_depth numeric
  obtain ⟨depth, left, counted⟩ := stopped result 3 short
  exact ⟨numeric, short, result, depth, left, counted, by decide⟩

end Machine

end LineForth
