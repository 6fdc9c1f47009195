import LineForth.Proofs.Expression

/-! # What operations need and leave

How many cells an operation needs, and by how many it changes their number, does not depend on what the
cells hold. With fewer cells it fails (`Operation.apply_of_short`); with enough of them, if they are
numbers, it takes leave, divides by zero or succeeds (`Operation.fares_of_numeric`).
-/

namespace LineForth

open Number

def Stack.Numeric (stack : Stack) : Prop := ∀ cell ∈ stack, ∃ value, cell = .number value

theorem Stack.numeric_cons {cell : Cell} {stack : Stack} :
    Numeric (cell :: stack) ↔ (∃ value, cell = .number value) ∧ Numeric stack :=
  List.forall_mem_cons

namespace Operation

def need : Operation → Nat
  | nop | bye => 0
  | drop | dup | unary _ => 1
  | binary _ => 2

/-- By how many cells an operation that succeeds changes the depth of the stack. -/
def change : Operation → Int
  | nop | bye | unary _ => 0
  | dup => 1
  | drop | binary _ => -1

/-- The operation is a quotient or a remainder, and its divisor is zero. -/
def DividesByZero (operation : Operation) (stack : Stack) : Prop :=
  ∃ function, operation = .binary function ∧ function.Divides ∧ stack.head? = some (.number 0)

/-- An operation leaves its exact result, reduced to what a cell holds. -/
theorem apply_unary (function : Unary) (operand : Int) (rest : Stack) :
    (unary function).apply (.number operand :: rest) =
      .leaves (.number (reduce (function.exact operand)) :: rest) := by
  rw [apply, applyKeeping, wrap_eq_reduce, Unary.eval_eq]

theorem apply_binary {function : Binary} {right : Int} (left : Int)
    (sound : ¬ (function.Divides ∧ right = 0)) (rest : Stack) :
    (binary function).apply (.number right :: .number left :: rest) =
      .leaves (.number (reduce (function.exact left right)) :: rest) := by
  rw [apply, applyKeeping, Binary.eval_of_sound left sound]
  simp only [wrap_eq_reduce]

theorem apply_fault {function : Binary} (divides : function.Divides) (left : Int)
    (rest : Stack) :
    (binary function).apply (.number 0 :: .number left :: rest) = .fails .divisionByZero := by
  rw [apply, applyKeeping, Binary.eval_of_fault divides]

/-- An operation that finds fewer cells than it needs fails, whatever they hold. -/
theorem apply_of_short {operation : Operation} {stack : Stack} (short : stack.length < operation.need) :
    operation.apply stack = .fails .stackUnderflow := by
  cases operation with
  | nop | bye => contradiction
  | drop | dup | unary function =>
    cases stack with
    | nil => rfl
    | cons top rest => simp [need] at short
  | binary function =>
    match stack with
    | [] | [.number _] | [.text _] => rfl
    | right :: left :: rest =>
      simp only [need, List.length_cons] at short
      omega

/-- The ways in which an operation that finds enough numbers can go. -/
inductive Fares (operation : Operation) (stack : Stack) : Prop
  | leaves : operation = .bye → operation.apply stack = .bye → Fares operation stack
  | divides : operation.DividesByZero stack → operation.apply stack = .fails .divisionByZero →
      Fares operation stack
  /-- It succeeds and changes the depth as it does always. -/
  | succeeds {next : Stack} :
      operation ≠ .bye → ¬ operation.DividesByZero stack → operation.apply stack = .leaves next →
      next.Numeric → (next.length : Int) = stack.length + operation.change → Fares operation stack

theorem not_dividesByZero {operation : Operation} (other : ∀ function, operation ≠ .binary function)
    (stack : Stack) : ¬ operation.DividesByZero stack := by
  rintro ⟨function, same, _⟩
  exact other function same

private theorem fares_binary (function : Binary) (right left : Int) {rest : Stack}
    (numeric : rest.Numeric) :
    (Operation.binary function).Fares (.number right :: .number left :: rest) := by
  by_cases fault : function.Divides ∧ right = 0
  · obtain ⟨divides, rfl⟩ := fault
    exact .divides ⟨function, rfl, divides, rfl⟩ (apply_fault divides left rest)
  · have apart : ¬ (Operation.binary function).DividesByZero (.number right :: .number left :: rest) := by
      rintro ⟨_, ⟨⟩, divides, top⟩
      cases top
      exact fault ⟨divides, rfl⟩
    refine .succeeds (by simp) apart (apply_binary left fault rest)
      (Stack.numeric_cons.mpr ⟨⟨_, rfl⟩, numeric⟩) ?_
    simp only [List.length_cons, change]
    omega

/-- An operation that finds enough numbers takes leave, divides by zero or succeeds. -/
theorem fares_of_numeric {operation : Operation} {stack : Stack} (numeric : stack.Numeric)
    (enough : operation.need ≤ stack.length) : operation.Fares stack := by
  cases operation with
  | bye => exact .leaves rfl rfl
  | nop => exact .succeeds (by simp) (not_dividesByZero (by simp) _) rfl numeric (by simp [change])
  | drop | dup | unary function =>
    cases stack with
    | nil => contradiction
    | cons top rest =>
      obtain ⟨⟨value, rfl⟩, below⟩ := Stack.numeric_cons.mp numeric
      refine .succeeds (by simp) (not_dividesByZero (by simp) _) rfl ?_ ?_
      · simp [Stack.numeric_cons, below]
      · simp only [List.length_cons, change]
        omega
  | binary function =>
    match stack with
    | [] | [_] => simp [need] at enough
    | upper :: lower :: rest =>
      obtain ⟨⟨right, rfl⟩, others⟩ := Stack.numeric_cons.mp numeric
      obtain ⟨⟨left, rfl⟩, below⟩ := Stack.numeric_cons.mp others
      exact fares_binary function right left below

end Operation

end LineForth
