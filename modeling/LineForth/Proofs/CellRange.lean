import LineForth.Proofs.Invariant

/-! # Numbers stay in range

Numbers come onto the data stack in two ways only: as literals, whose reader refuses what does not
fit a cell, and as results, which are wrapped. So a stack whose numbers fit keeps to them, through
errors, defects and leave-taking, and whatever tokens and operations are queued by hand
(`Session.stack_fits`). Cells that are pushed from outside have to fit by themselves.
-/

namespace LineForth

open Number

/-- The stacks whose numbers are numbers that a cell holds. -/
def Stack.Fits (stack : Stack) : Prop := ∀ value, .number value ∈ stack → FitsCell value

namespace Stack

theorem fits_nil : Fits [] := by
  intro value member
  contradiction

theorem Fits.cons_number {value : Int} {stack : Stack} (fits : FitsCell value) (rest : Fits stack) :
    Fits (.number value :: stack) := by
  intro other member
  rcases List.mem_cons.mp member with same | member
  · cases same
    exact fits
  · exact rest other member

theorem Fits.subset {stack smaller : Stack} (fits : Fits stack) (subset : smaller ⊆ stack) :
    Fits smaller :=
  fun value member => fits value (subset member)

theorem Fits.append {upper lower : Stack} (above : Fits upper) (below : Fits lower) :
    Fits (upper ++ lower) := by
  intro value member
  rcases List.mem_append.mp member with upper | lower
  · exact above value upper
  · exact below value lower

end Stack

namespace Operation

/-- What an operation that succeeds makes of a stack. -/
inductive Succeeds : Operation → Stack → Stack → Prop
  | nop {stack : Stack} : Succeeds .nop stack stack
  | drop {top : Cell} {rest : Stack} : Succeeds .drop (top :: rest) rest
  | dup {top : Cell} {rest : Stack} : Succeeds .dup (top :: rest) (top :: top :: rest)
  | unary {function : Unary} {operand : Int} {rest : Stack} :
      Succeeds (.unary function) (.number operand :: rest)
        (.number (wrap (function.eval operand)) :: rest)
  | binary {function : Binary} {left right value : Int} {rest : Stack} :
      function.eval left right = .ok value →
      Succeeds (.binary function) (.number right :: .number left :: rest) (.number (wrap value) :: rest)

theorem apply_eq_leaves_iff {operation : Operation} {stack next : Stack} :
    operation.apply stack = .leaves next ↔ Succeeds operation stack next := by
  constructor
  · intro effect
    unfold apply applyKeeping at effect
    split at effect
    · cases effect; exact .nop
    · cases effect; exact .drop
    · cases effect; exact .dup
    · contradiction
    · cases effect; exact .unary
    · contradiction
    · split at effect
      · next result => cases effect; exact .binary result
      · contradiction
    all_goals contradiction
  · intro succeeds
    cases succeeds with
    | binary result => simp only [apply, applyKeeping, result]
    | _ => rfl

/-- An operation wraps what it computes and makes no other number. -/
theorem Succeeds.fits {operation : Operation} {stack next : Stack}
    (succeeds : Succeeds operation stack next) (fits : stack.Fits) : next.Fits := by
  cases succeeds with
  | nop => exact fits
  | drop => exact fits.subset (List.subset_cons_self ..)
  | dup => exact fits.subset (by simp)
  | unary => exact .cons_number (fitsCell_wrap _) (fits.subset (List.subset_cons_self ..))
  | binary => exact .cons_number (fitsCell_wrap _) (fits.subset (by simp))

end Operation

/-- A token that means a number to be pushed means one that fits. -/
theorem Token.fitsCell_of_meaning {dictionary : Dictionary} {token : Token} {value : Int}
    (success : token.meaning dictionary = .ok (.push value)) : FitsCell value := by
  unfold meaning at success
  split at success
  · cases read : Number.Literal.read token.text with
    | ok number =>
      simp only [readNumber, read, Except.map] at success
      cases success
      exact Literal.fitsCell_of_read read
    | error cause => cases cause <;> simp only [readNumber, read, Except.map, reduceCtorEq] at success
  · split at success <;> cases success
  · cases success

namespace Machine

theorem resolveAll_fits {machine : Machine} (fits : machine.stack.Fits) (tokens : List Token) :
    (machine.resolveAll tokens).machine.stack.Fits := by
  induction tokens generalizing machine with
  | nil => exact fits
  | cons token rest ih =>
    unfold resolveAll
    cases success : token.meaning machine.dictionary with
    | ok meaning =>
      cases meaning with
      | push value => exact ih (.cons_number (Token.fitsCell_of_meaning success) fits)
      | queue operations => exact ih fits
    | error cause => exact fits

theorem executeAll_fits {machine : Machine} (fits : machine.stack.Fits) (operations : List Operation) :
    (machine.executeAll operations).machine.stack.Fits := by
  induction operations generalizing machine with
  | nil => exact fits
  | cons operation rest ih =>
    rw [executeAll_cons]
    cases effect : operation.apply machine.stack with
    | leaves next => exact ih ((Operation.apply_eq_leaves_iff.mp effect).fits fits)
    | fails cause => exact fits
    | bye => exact fits

theorem evaluate_fits {machine : Machine} (fits : machine.stack.Fits) (line : String) :
    (machine.evaluate line).machine.stack.Fits :=
  evaluate_invariant (P := fun machine => machine.stack.Fits) (fun _ _ fits => fits)
    (fun _ fits => resolveAll_fits fits _) (fun _ fits => executeAll_fits fits _) fits line

end Machine

/-- The requests that bring no number onto the stack that does not fit. All but those that push cells
from outside are among them, whatever they ask for. -/
def Step.Fits : Step → Prop
  | push cells | setStack cells => Stack.Fits cells
  | _ => True

theorem Step.target_fits {machine : Machine} {step : Step} (admitted : step.Fits)
    (fits : machine.stack.Fits) : (step.target machine).stack.Fits := by
  cases step with
  | scan line start =>
    exact Machine.scan_invariant (P := fun machine => machine.stack.Fits) (fun _ _ kept => kept) fits
      line start
  | resolve => exact Machine.resolveAll_fits fits _
  | execute => exact Machine.executeAll_fits fits _
  | evaluate line => exact Machine.evaluate_fits fits line
  | runLine line => exact Machine.evaluate_fits fits _
  | forget name =>
    simp only [target, Machine.forget?]
    split <;> exact fits
  | loadCore => simpa only [target, Machine.defineCore] using fits
  | define name operations => simpa only [target, Machine.define] using fits
  | push cells =>
    exact Stack.Fits.append (Stack.Fits.subset admitted (by simp)) fits
  | setStack cells => exact Stack.Fits.subset admitted (by simp [target, Machine.setStack])
  | _ => exact fits

/-- Over a whole session, halts of every kind included, the numbers on the stack stay numbers that a
cell holds. -/
theorem Session.stack_fits {machine : Machine} (fits : machine.stack.Fits) {steps : List Step}
    (admitted : ∀ step ∈ steps, step.Fits) :
    ∀ reply ∈ Session.run machine steps, reply.machine.stack.Fits :=
  Session.run_invariant (P := fun machine => machine.stack.Fits)
    (fun _ _ admitted fits => Step.target_fits admitted fits) fits admitted

/-- A session over the edges of the range: the product and the quotient wrap, the literal is refused,
and the word queued by hand has lost its entry. -/
theorem Session.stack_fits_wrapping :
    let machine := Machine.empty.defineCore.push [.number leastCell, .number greatestCell]
    let steps : List Step := [.runLine "DUP *", .evaluate "DROP 1 NEGATE / 9223372036854775808 ",
      .forget "DUP", .queueTokens [⟨"DUP", .word⟩], .resolve, .queueOperations [.dup, .bye, .drop],
      .execute]
    machine.stack.Fits ∧ (∀ step ∈ steps, step.Fits) ∧
      (Session.run machine steps).length = 7 ∧
      ∀ reply ∈ Session.run machine steps, reply.machine.stack.Fits := by
  intro machine steps
  have fits : machine.stack.Fits := by
    refine .cons_number (by decide) (.cons_number (by decide) ?_)
    exact Stack.fits_nil
  have admitted : ∀ step ∈ steps, step.Fits := by simp [steps, Step.Fits]
  exact ⟨fits, admitted, rfl, stack_fits fits admitted⟩

end LineForth
