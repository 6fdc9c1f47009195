import LineForth.Proofs.View

/-! # Cells that are out of reach

An operation looks at the cells it needs and at none below them, so what lies under a stack on which an
operation does not run short plays no part in its effect (`Operation.apply_append`). A whole line that
does not run short evaluates alike over any further cells, numbers or texts, and leaves them where they
are (`Machine.evaluate_onto`).
-/

namespace LineForth

/-- The same machine with more cells at the bottom of its stack. -/
def View.onto (deep : Stack) : View where
  stack upper := upper ++ deep

/-- An operation that does not run short leaves the cells below a stack alone. -/
theorem Operation.apply_append {operation : Operation} {stack : Stack}
    (enough : operation.apply stack ≠ .fails .stackUnderflow) (deep : Stack) :
    operation.apply (stack ++ deep) = (operation.apply stack).map (· ++ deep) := by
  cases operation with
  | nop | bye => rfl
  | drop | dup =>
    cases stack with
    | nil => contradiction
    | cons top rest => rfl
  | unary function =>
    match stack with
    | [] => contradiction
    | .number operand :: rest => rfl
    | .text content :: rest => rfl
  | binary function =>
    match stack with
    | [] | [.number _] | [.text _] => contradiction
    | .number right :: .number left :: rest =>
      simp only [List.cons_append, apply, applyKeeping]
      cases function.eval left right <;> rfl
    | .text content :: lower :: rest => rfl
    | .number right :: .text content :: rest => rfl

theorem View.transparent_onto (deep : Stack) : (View.onto deep).Transparent (· ≠ .stackUnderflow) where
  push _ _ := rfl
  carries _ _ accounted := Operation.apply_append (fun short => accounted _ short rfl) deep

namespace Machine

/-- Unless a line runs short of cells, any further cells at the bottom of the stack change nothing in
its evaluation and are left there: it ends alike, prints the same, and leaves the same machine but for
those cells. What is queued when it begins may be anything. -/
theorem evaluate_onto (machine : Machine) (deep : Stack) {line : String}
    (enough : (machine.evaluate line).result ≠ .error (.ofExecution .stackUnderflow)) :
    let shallow := machine.evaluate line
    let raised := { machine with stack := machine.stack ++ deep }.evaluate line
    raised.result = shallow.result ∧
      raised.machine = { shallow.machine with stack := shallow.machine.stack ++ deep } ∧
      raised.trace.output = shallow.trace.output := by
  intro shallow raised
  have within : shallow.FailsWithin (· ≠ .stackUnderflow) := by
    rintro cause failed rfl
    exact enough failed
  have same : raised = shallow.through (.onto deep) :=
    evaluate_through (View.transparent_onto deep) (fun _ _ => rfl) (fun _ _ _ => rfl) within
  rw [same]
  exact ⟨rfl, rfl, Run.output_through ..⟩

/-- A line that begins with a token and operations queued and stops at a text: the two cells below are
not reached, though the last of them is a text as well. -/
theorem evaluate_onto_mismatch :
    let deep : Stack := [.number (-3), .text "bottom"]
    let machine : Machine :=
      { empty.defineCore with
        tokens := [⟨"7", .number⟩], operations := [.dup, .binary .mul], stack := [.text "top"] }
    let raised := { machine with stack := machine.stack ++ deep }.evaluate "2 + DROP NEGATE 1\n"
    (machine.evaluate "2 + DROP NEGATE 1\n").result ≠ .error (.ofExecution .stackUnderflow) ∧
      raised.result = .error (.ofExecution .typeMismatch) ∧
      raised.machine.stack = [.text "top", .number (-3), .text "bottom"] ∧
      raised.machine.applied = 4 := by
  intro deep machine raised
  have result : (machine.evaluate "2 + DROP NEGATE 1\n").result = .error (.ofExecution .typeMismatch) := by
    decide +kernel
  have enough : (machine.evaluate "2 + DROP NEGATE 1\n").result ≠
      .error (.ofExecution .stackUnderflow) := by
    rw [result]
    decide
  obtain ⟨ends, left, _⟩ := evaluate_onto machine deep enough
  have last : raised.machine = _ := left
  rw [last]
  exact ⟨enough, ends.trans result, by decide +kernel, by decide +kernel⟩

end Machine

end LineForth
