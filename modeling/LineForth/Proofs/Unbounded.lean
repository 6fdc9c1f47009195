import LineForth.Proofs.CellRange
import LineForth.Proofs.Number.Residue
import LineForth.Proofs.StackDepth
import LineForth.Proofs.View

/-! # Wrapping once at the end

The machine wraps every result. A machine that never wraps keeps all results as they are, and for the
operations whose results are sums, differences, products and negatives it makes no difference when its
numbers are wrapped: both machines end alike at the same operation, and the stack of the one is the
stack of the other with each number wrapped (`Machine.execute_eq_wrapped`). Quotients, comparisons and
absolute values are not among those operations, since they tell apart numbers that wrap alike.
-/

namespace LineForth

open Number

/-- The cell with its number, if it holds one, changed. -/
def Cell.mapNumber (change : Int → Int) : Cell → Cell
  | number value => .number (change value)
  | text content => .text content

namespace Operation

/-- The operations whose results are polynomials in their operands, and those that compute nothing and
go on. -/
def polynomials : List Operation :=
  [nop, binary .add, binary .sub, binary .mul, unary .negate, dup, drop]

/-- Operations on two operands whose result may be wrapped before or after commute with wrapping. -/
private theorem applyKeeping_binary_map_wrap {function : Binary} {result : Int → Int → Int}
    (eval : ∀ left right, function.eval left right = .ok (result left right))
    (agree : ∀ left right, wrap (result (wrap left) (wrap right)) = wrap (result left right))
    (stack : Stack) :
    (binary function).applyKeeping wrap (stack.map (Cell.mapNumber wrap)) =
      ((binary function).applyKeeping id stack).map (List.map (Cell.mapNumber wrap)) := by
  match stack with
  | .number right :: .number left :: rest =>
    simp only [List.map_cons, Cell.mapNumber, applyKeeping, eval, agree, Effect.map, id_eq]
  | [] | [.number _] | [.text _] | .text _ :: _ :: _ | .number _ :: .text _ :: _ => rfl

/-- What an operation of this kind makes of wrapped numbers is what it makes of the numbers themselves,
wrapped afterwards. -/
theorem applyKeeping_map_wrap {operation : Operation} (polynomial : operation ∈ polynomials)
    (stack : Stack) :
    operation.applyKeeping wrap (stack.map (Cell.mapNumber wrap)) =
      (operation.applyKeeping id stack).map (List.map (Cell.mapNumber wrap)) := by
  simp only [polynomials, List.mem_cons, List.not_mem_nil, or_false] at polynomial
  rcases polynomial with rfl | rfl | rfl | rfl | rfl | rfl | rfl
  · rfl
  · exact applyKeeping_binary_map_wrap (fun _ _ => rfl) (signedResidue_add cellWidth) stack
  · exact applyKeeping_binary_map_wrap (fun _ _ => rfl) (signedResidue_sub cellWidth) stack
  · exact applyKeeping_binary_map_wrap (fun _ _ => rfl) (signedResidue_mul cellWidth) stack
  · match stack with
    | [] | .text _ :: _ => rfl
    | .number operand :: rest =>
      simp only [List.map_cons, Cell.mapNumber, applyKeeping, Unary.eval, Effect.map, id_eq]
      rw [wrap, wrap, signedResidue_neg, wrap]
  · cases stack <;> rfl
  · cases stack <;> rfl

end Operation

def View.wrapped : View where
  stack := List.map (Cell.mapNumber wrap)

theorem View.wrapped_carries {operation : Operation} (polynomial : operation ∈ Operation.polynomials) :
    View.wrapped.Carries (fun _ => True) (Operation.applyKeeping id) Operation.apply operation :=
  fun stack _ => Operation.applyKeeping_map_wrap polynomial stack

theorem Stack.Fits.map_wrap {stack : Stack} (fits : stack.Fits) :
    stack.map (Cell.mapNumber wrap) = stack := by
  refine (List.map_congr_left fun cell member => ?_).trans (List.map_id stack)
  cases cell with
  | number value => exact congrArg Cell.number (wrap_eq_self (fits value member))
  | text content => rfl

namespace Machine

/-- Apply the operation queue without ever wrapping a result. -/
def executeUnbounded (machine : Machine) : Run Unit :=
  machine.executeAllBy (Operation.applyKeeping id) machine.operations

/-- Sums, differences, products and negatives, with operations that compute nothing among them, may be
wrapped at the end: on numbers that fit, the machine that wraps every result ends like the one that
wraps none, be it well or because the stack runs short, and leaves the same machine but for the stack,
on which each number is the residue, by the masks of a register, of the number that the other leaves. -/
theorem execute_eq_wrapped {machine : Machine} (numeric : machine.stack.Numeric)
    (fits : machine.stack.Fits)
    (polynomial : ∀ operation ∈ machine.operations, operation ∈ Operation.polynomials) :
    let wrapping := machine.execute
    let unbounded := machine.executeUnbounded
    wrapping.result = unbounded.result ∧
      (wrapping.result = .ok () ∨ wrapping.result = .error (.ofExecution .stackUnderflow)) ∧
      wrapping.machine =
        { unbounded.machine with
          stack := unbounded.machine.stack.map (Cell.mapNumber (maskedResidue cellWidth)) } := by
  intro wrapping unbounded
  have plain : ∀ operation ∈ Operation.polynomials,
      operation ≠ .bye ∧ operation ≠ .binary .div ∧ operation ≠ .binary .mod := by decide
  have begun : View.wrapped.machine machine = machine := by
    change { machine with stack := machine.stack.map (Cell.mapNumber wrap) } = machine
    rw [fits.map_wrap]
  have same : wrapping = unbounded.through .wrapped := by
    have seen : (View.wrapped.machine machine).executeAllBy Operation.apply machine.operations =
        unbounded.through .wrapped :=
      executeAllBy_through (fun operation member => View.wrapped_carries (polynomial operation member))
        fun _ _ => trivial
    rwa [begun] at seen
  refine ⟨?_, ?_, ?_⟩
  · rw [same]
    rfl
  · refine ((executeAll_outcome numeric machine.operations).of_never_ends (not_endsAt ?_)).1
    exact fun operation member => plain operation (polynomial operation member)
  · rw [same, ← wrap_eq_maskedResidue]
    rfl

/-- Doubling the greatest number and squaring the sum leaves the range twice before the stack runs
short; only the last stack has to be wrapped. -/
theorem execute_eq_wrapped_square :
    let machine : Machine :=
      { empty with
        operations := [.dup, .binary .add, .dup, .binary .mul, .unary .negate, .binary .sub, .nop]
        stack := [.number greatestCell] }
    machine.stack.Numeric ∧ machine.stack.Fits ∧
      (∀ operation ∈ machine.operations, operation ∈ Operation.polynomials) ∧
      machine.execute.result = .error (.ofExecution .stackUnderflow) ∧
      machine.executeUnbounded.machine.stack = [.number (-340282366920938463389587631136930004996)] ∧
      machine.execute.machine.stack = [.number (-4)] ∧
      machine.execute.machine.operations = [.nop] ∧ machine.execute.machine.applied = 5 := by
  intro machine
  have numeric : machine.stack.Numeric :=
    Stack.numeric_cons.mpr ⟨⟨greatestCell, rfl⟩, List.forall_mem_nil _⟩
  have fits : machine.stack.Fits := .cons_number (by decide) Stack.fits_nil
  have polynomial : ∀ operation ∈ machine.operations, operation ∈ Operation.polynomials := by decide
  obtain ⟨ends, _, left⟩ := execute_eq_wrapped numeric fits polynomial
  have unbounded : machine.executeUnbounded.result = .error (.ofExecution .stackUnderflow) := by
    decide +kernel
  rw [left]
  exact ⟨numeric, fits, polynomial, ends.trans unbounded, by decide +kernel, by decide +kernel,
    by decide +kernel, by decide +kernel⟩

end Machine

end LineForth
