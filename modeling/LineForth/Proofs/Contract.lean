import LineForth.Machine.Execution
import LineForth.Proofs.CellRange
import LineForth.Proofs.Effects
import Mathlib.Algebra.Order.Group.Int
import Mathlib.Algebra.Order.Ring.Abs

/-! # The contract of every operation

What an operation does to any stack whose numbers fit, said without the functions that compute it. It
may fail in three ways, the first that applies counting: it finds too few cells, whatever they hold; a
numeric operation finds a text among the cells it needs; a quotient or remainder finds the divisor zero
(`Operation.FailsOn`). Otherwise it puts certain cells in the place of those it needs
(`Operation.Replaces`) and leaves the cells below alone, unless it takes leave. That each operation
keeps to this is `Machine.apply_contract`.
-/

namespace LineForth

open Number

/-- The number that a numeric operation makes of the number of a cell. -/
inductive Unary.Yields (operand : Int) : Unary → Int → Prop
  | abs : operand ≠ leastCell → Yields operand .abs |operand|
  /-- The least number has no counterpart among the positive ones. -/
  | absLeast : operand = leastCell → Yields operand .abs leastCell
  | negate : Yields operand .negate (-BitVec.ofInt 64 operand).toInt
  | holds {comparison : Comparison} :
      comparison.Holds operand 0 → Yields operand (.compareZero comparison) 1
  | holdsNot {comparison : Comparison} :
      ¬ comparison.Holds operand 0 → Yields operand (.compareZero comparison) 0

/-- The number that a numeric operation makes of the numbers of two cells. -/
inductive Binary.Yields (left right : Int) : Binary → Int → Prop
  | add : Yields left right .add (BitVec.ofInt 64 left + BitVec.ofInt 64 right).toInt
  | sub : Yields left right .sub (BitVec.ofInt 64 left - BitVec.ofInt 64 right).toInt
  | mul : Yields left right .mul (BitVec.ofInt 64 left * BitVec.ofInt 64 right).toInt
  | div : right ≠ 0 → ¬ (left = leastCell ∧ right = -1) → Yields left right .div (left.tdiv right)
  /-- The one quotient that no cell holds. -/
  | divLeast : left = leastCell → right = -1 → Yields left right .div leastCell
  | mod {remainder : Int} : 0 ≤ remainder → remainder < |right| → right ∣ left - remainder →
      Yields left right .mod remainder
  | max : Yields left right .max (left ⊔ right)
  | min : Yields left right .min (left ⊓ right)
  | holds {comparison : Comparison} :
      comparison.Holds left right → Yields left right (.compare comparison) 1
  | holdsNot {comparison : Comparison} :
      ¬ comparison.Holds left right → Yields left right (.compare comparison) 0

theorem Number.reduce_eq_self {value : Int} (fits : FitsCell value) : reduce value = value := by
  rw [← wrap_eq_reduce, wrap_eq_self fits]

section Results

variable {operand left right value other : Int}

theorem Unary.Yields.unique {function : Unary} (first : function.Yields operand value)
    (second : function.Yields operand other) : value = other := by
  cases first with
  | abs other =>
    cases second with
    | abs => rfl
    | absLeast least => contradiction
  | absLeast least =>
    cases second with
    | abs other => contradiction
    | absLeast => rfl
  | negate => cases second; rfl
  | holds holds =>
    cases second with
    | holds => rfl
    | holdsNot holdsNot => contradiction
  | holdsNot holdsNot =>
    cases second with
    | holds => contradiction
    | holdsNot => rfl

/-- There is one remainder in the range that a divisor leaves. -/
theorem Number.remainder_eq (least : 0 ≤ value) (below : value < |right|)
    (divides : right ∣ left - value) : value = left % right := by
  rw [← Int.emod_abs left right, ← Int.emod_eq_of_lt least below]
  refine (Int.emod_eq_emod_iff_emod_sub_eq_zero.mpr ?_).symm
  exact Int.emod_eq_zero_of_dvd ((abs_dvd right _).mpr divides)

theorem Binary.Yields.unique {function : Binary} (first : function.Yields left right value)
    (second : function.Yields left right other) : value = other := by
  cases first with
  | div _ apart =>
    cases second with
    | div => rfl
    | divLeast least divisor => exact absurd ⟨least, divisor⟩ apart
  | divLeast least divisor =>
    cases second with
    | div _ apart => exact absurd ⟨least, divisor⟩ apart
    | divLeast => rfl
  | mod least below divides =>
    cases second with
    | mod otherLeast otherBelow otherDivides =>
      rw [remainder_eq least below divides, remainder_eq otherLeast otherBelow otherDivides]
  | holds holds =>
    cases second with
    | holds => rfl
    | holdsNot holdsNot => contradiction
  | holdsNot holdsNot =>
    cases second with
    | holds => contradiction
    | holdsNot => rfl
  | add | sub | mul | max | min => cases second; rfl

theorem Number.fitsCell_flag {holds : Prop} [Decidable holds] :
    FitsCell (if holds then 1 else 0) := by
  split <;> decide

theorem Unary.yields_reduce (fits : FitsCell operand) (function : Unary) :
    function.Yields operand (reduce (function.exact operand)) := by
  cases function with
  | abs =>
    by_cases least : operand = leastCell
    · subst least
      exact .absLeast rfl
    · have kept : FitsCell |operand| := by
        rw [← Int.natCast_natAbs]
        simp only [FitsCell, leastCell, greatestCell] at fits least ⊢
        omega
      rw [exact, reduce_eq_self kept]
      exact .abs least
  | negate =>
    rw [exact, reduce, BitVec.ofInt_neg]
    exact .negate
  | compareZero comparison =>
    rw [exact, reduce_eq_self fitsCell_flag]
    split
    · next holds => exact .holds holds
    · next holdsNot => exact .holdsNot holdsNot

/-- Every quotient but one fits a cell. -/
theorem Number.fitsCell_tdiv (fits : FitsCell left) (apart : ¬ (left = leastCell ∧ right = -1)) :
    FitsCell (left.tdiv right) := by
  have magnitude : (left.tdiv right).natAbs = left.natAbs / right.natAbs := Int.natAbs_tdiv left right
  by_cases least : left = leastCell
  · by_cases one : right = 1
    · rwa [one, Int.tdiv_one]
    · -- The divisor is zero, or it is at least two in size.
      have half : left.natAbs / right.natAbs ≤ left.natAbs / 2 := by
        rcases Nat.eq_zero_or_pos right.natAbs with zero | positive
        · simp [zero]
        · have size : 2 ≤ right.natAbs := by
            have other : right ≠ -1 := fun minus => apart ⟨least, minus⟩
            omega
          exact Nat.div_le_div_left size (by decide)
      simp only [FitsCell, leastCell, greatestCell] at fits ⊢
      omega
  · have smaller : left.natAbs / right.natAbs ≤ left.natAbs := Nat.div_le_self ..
    simp only [FitsCell, leastCell, greatestCell] at fits least ⊢
    omega

theorem Binary.yields_reduce (fitsLeft : FitsCell left) (fitsRight : FitsCell right) {function : Binary}
    (sound : ¬ (function.Divides ∧ right = 0)) :
    function.Yields left right (reduce (function.exact left right)) := by
  cases function with
  | add =>
    rw [exact, reduce, BitVec.ofInt_add]
    exact .add
  | sub =>
    have difference : BitVec.ofInt 64 (left - right) = BitVec.ofInt 64 left - BitVec.ofInt 64 right := by
      rw [Int.sub_eq_add_neg, BitVec.ofInt_add, BitVec.ofInt_neg, BitVec.sub_eq_add_neg]
    rw [exact, reduce, difference]
    exact .sub
  | mul =>
    rw [exact, reduce, BitVec.ofInt_mul]
    exact .mul
  | div =>
    have divisor : right ≠ 0 := fun zero => sound ⟨.inl rfl, zero⟩
    by_cases corner : left = leastCell ∧ right = -1
    · obtain ⟨rfl, rfl⟩ := corner
      exact .divLeast rfl rfl
    · rw [exact, reduce_eq_self (fitsCell_tdiv fitsLeft corner)]
      exact .div divisor corner
  | mod =>
    have divisor : right ≠ 0 := fun zero => sound ⟨.inr rfl, zero⟩
    have least : 0 ≤ left % |right| := Int.emod_nonneg _ (abs_ne_zero.mpr divisor)
    have below : left % |right| < |right| := Int.emod_lt_of_pos _ (abs_pos.mpr divisor)
    have kept : FitsCell (left % |right|) := by
      rw [← Int.natCast_natAbs] at least below ⊢
      simp only [FitsCell, leastCell, greatestCell] at fitsRight ⊢
      omega
    rw [exact, reduce_eq_self kept]
    exact .mod least below ((abs_dvd right _).mp Int.dvd_self_sub_emod)
  | max =>
    have kept : FitsCell (left ⊔ right) := by
      simp only [FitsCell] at fitsLeft fitsRight ⊢
      omega
    rw [exact, reduce_eq_self kept]
    exact .max
  | min =>
    have kept : FitsCell (left ⊓ right) := by
      simp only [FitsCell] at fitsLeft fitsRight ⊢
      omega
    rw [exact, reduce_eq_self kept]
    exact .min
  | compare comparison =>
    rw [exact, reduce_eq_self fitsCell_flag]
    split
    · next holds => exact .holds holds
    · next holdsNot => exact .holdsNot holdsNot

end Results

theorem Stack.exists_two {stack : Stack} (enough : 2 ≤ stack.length) :
    ∃ top lower rest, stack = top :: lower :: rest := by
  obtain ⟨top, others, rfl⟩ := List.exists_cons_of_length_pos (Nat.zero_lt_of_lt enough)
  obtain ⟨lower, rest, rfl⟩ := List.exists_cons_of_length_pos (Nat.lt_of_succ_lt_succ enough)
  exact ⟨top, lower, rest, rfl⟩

namespace Operation

/-- The operations that compute with the cells they need. -/
def IsNumeric (operation : Operation) : Prop :=
  (∃ function, operation = unary function) ∨ ∃ function, operation = binary function

/-- The fault that an operation stops at, each kind behind those that are looked for first. -/
inductive FailsOn (operation : Operation) (stack : Stack) : ExecutionError → Prop
  | underflow : stack.length < operation.need → FailsOn operation stack .stackUnderflow
  | mismatch (content : String) : operation.need ≤ stack.length → operation.IsNumeric →
      .text content ∈ stack.take operation.need → FailsOn operation stack .typeMismatch
  | zero : operation.need ≤ stack.length → Stack.Numeric (stack.take operation.need) →
      operation.DividesByZero stack → FailsOn operation stack .divisionByZero

/-- What an operation that succeeds puts in the place of the cells it needs, top cells first. -/
inductive Replaces : Operation → Stack → Stack → Prop
  | nop : Replaces .nop [] []
  | drop {top : Cell} : Replaces .drop [top] []
  | dup {top : Cell} : Replaces .dup [top] [top, top]
  | unary {function : Unary} {operand value : Int} : function.Yields operand value →
      Replaces (.unary function) [.number operand] [.number value]
  | binary {function : Binary} {left right value : Int} : function.Yields left right value →
      Replaces (.binary function) [.number right, .number left] [.number value]

theorem Replaces.unique {operation : Operation} {operands results others : Stack}
    (first : operation.Replaces operands results) (second : operation.Replaces operands others) :
    results = others := by
  cases first with
  | nop | drop | dup => cases second; rfl
  | unary yields =>
    cases second with
    | unary other => rw [yields.unique other]
  | binary yields =>
    cases second with
    | binary other => rw [yields.unique other]

/-- A text among the cells that a numeric operation needs is the first thing that it fails on. -/
theorem apply_of_text {operation : Operation} (numeric : operation.IsNumeric) {stack : Stack}
    (enough : operation.need ≤ stack.length) {content : String}
    (text : .text content ∈ stack.take operation.need) : operation.apply stack = .fails .typeMismatch := by
  rcases numeric with ⟨function, rfl⟩ | ⟨function, rfl⟩
  · obtain ⟨top, rest, rfl⟩ := List.exists_cons_of_length_pos enough
    cases top with
    | number _ => simp [need] at text
    | text _ => rfl
  · obtain ⟨top, lower, rest, rfl⟩ := Stack.exists_two enough
    cases top with
    | number _ =>
      cases lower with
      | number _ => simp [need] at text
      | text _ => rfl
    | text _ => rfl

theorem apply_of_failsOn {operation : Operation} {stack : Stack} {cause : ExecutionError}
    (fault : operation.FailsOn stack cause) : operation.apply stack = .fails cause := by
  cases fault with
  | underflow short => exact apply_of_short short
  | mismatch content enough numeric text => exact apply_of_text numeric enough text
  | zero enough numeric divides =>
    obtain ⟨function, rfl, divides, top⟩ := divides
    obtain ⟨_, lower, rest, rfl⟩ := Stack.exists_two enough
    obtain rfl := Option.some.inj top
    obtain ⟨left, rfl⟩ := numeric lower (by simp [need])
    exact apply_fault divides left rest

/-- No text is among the cells that a numeric operation without a fault needs. -/
theorem not_text_of_sound {operation : Operation} {stack : Stack} (enough : operation.need ≤ stack.length)
    (numeric : operation.IsNumeric) (sound : ∀ cause, ¬ operation.FailsOn stack cause) (content : String) :
    .text content ∉ stack.take operation.need :=
  fun text => sound .typeMismatch (.mismatch content enough numeric text)

/-- An operation without a fault puts in the place of the cells it needs what its contract says. -/
theorem apply_of_sound {operation : Operation} {stack : Stack} (fits : stack.Fits)
    (sound : ∀ cause, ¬ operation.FailsOn stack cause) (stays : operation ≠ .bye) :
    ∃ operands results below, stack = operands ++ below ∧ operands.length = operation.need ∧
      operation.Replaces operands results ∧ operation.apply stack = .leaves (results ++ below) := by
  have enough : operation.need ≤ stack.length := Nat.not_lt.mp fun short => sound _ (.underflow short)
  cases operation with
  | bye => contradiction
  | nop => exact ⟨[], [], stack, rfl, rfl, .nop, rfl⟩
  | drop =>
    obtain ⟨top, rest, rfl⟩ := List.exists_cons_of_length_pos enough
    exact ⟨[top], [], rest, rfl, rfl, .drop, rfl⟩
  | dup =>
    obtain ⟨top, rest, rfl⟩ := List.exists_cons_of_length_pos enough
    exact ⟨[top], [top, top], rest, rfl, rfl, .dup, rfl⟩
  | unary function =>
    have numbers := not_text_of_sound enough (.inl ⟨function, rfl⟩) sound
    obtain ⟨top, rest, rfl⟩ := List.exists_cons_of_length_pos enough
    cases top with
    | text content => exact absurd (by simp [need]) (numbers content)
    | number operand =>
      have fitsOperand : FitsCell operand := fits operand (by simp)
      exact ⟨[.number operand], _, rest, rfl, rfl, .unary (function.yields_reduce fitsOperand),
        apply_unary function operand rest⟩
  | binary function =>
    have numbers := not_text_of_sound enough (.inr ⟨function, rfl⟩) sound
    obtain ⟨top, lower, rest, rfl⟩ := Stack.exists_two enough
    cases top with
    | text content => exact absurd (by simp [need]) (numbers content)
    | number right =>
      cases lower with
      | text content => exact absurd (by simp [need]) (numbers content)
      | number left =>
        have fitsRight : FitsCell right := fits right (by simp)
        have fitsLeft : FitsCell left := fits left (by simp)
        have nonzero : ¬ (function.Divides ∧ right = 0) := by
          rintro ⟨divides, rfl⟩
          refine sound .divisionByZero (.zero enough ?_ ⟨function, rfl, divides, rfl⟩)
          simp [need, Stack.Numeric]
        exact ⟨[.number right, .number left], _, rest, rfl, rfl,
          .binary (Binary.yields_reduce fitsLeft fitsRight nonzero), apply_binary left nonzero rest⟩

end Operation

namespace Machine

open Operation

/-- Every operation keeps to its contract on a stack whose numbers fit. At a fault, found in the order of
the contract, the machine is as it was. Taking leave changes nothing either. In every other case the
operation succeeds: the cells it needs give way to the ones that the contract names, which are the only
ones it allows, and all else stays as it was. -/
theorem apply_contract {machine : Machine} (fits : machine.stack.Fits) (operation : Operation) :
    (∀ cause, operation.FailsOn machine.stack cause →
      machine.apply operation = .halt (.ofExecution cause) machine) ∧
    (operation = .bye → machine.apply operation = ⟨.error .bye, machine, [.printed farewell]⟩) ∧
    ((∀ cause, ¬ operation.FailsOn machine.stack cause) → operation ≠ .bye →
      ∃ operands results below, machine.stack = operands ++ below ∧ operands.length = operation.need ∧
        operation.Replaces operands results ∧
        (∀ others, operation.Replaces operands others → others = results) ∧
        machine.apply operation = .done () { machine with stack := results ++ below }) := by
  refine ⟨fun cause fault => ?_, ?_, fun sound stays => ?_⟩
  · rw [apply, apply_of_failsOn fault]
  · rintro rfl
    rfl
  · obtain ⟨operands, results, below, split, size, replaces, effect⟩ := apply_of_sound fits sound stays
    refine ⟨operands, results, below, split, size, replaces, fun _ other => other.unique replaces, ?_⟩
    rw [apply, effect]

/-- The quotient that no cell holds, over a text that is not looked at; and a remainder that would divide
by zero if there were not a text in the way. -/
theorem apply_contract_corners :
    let corner := { empty with stack := [.number (-1), .number leastCell, .text "below"] }
    let mixed := { empty with stack := [.number 0, .text "left"] }
    corner.stack.Fits ∧ mixed.stack.Fits ∧
      corner.apply (.binary .div) = .done () { corner with stack := [.number leastCell, .text "below"] } ∧
      mixed.apply (.binary .mod) = .halt (.ofExecution .typeMismatch) mixed := by
  intro corner mixed
  have cornerFits : corner.stack.Fits := by
    refine .cons_number (by decide) (.cons_number (by decide) ?_)
    simp [Stack.Fits]
  have mixedFits : mixed.stack.Fits := .cons_number (by decide) (by simp [Stack.Fits])
  have sound : ∀ cause, ¬ (binary .div).FailsOn corner.stack cause := by
    rintro _ (short | ⟨_, _, _, text⟩ | ⟨_, _, _, ⟨⟩, _, top⟩)
    · simp [corner, need] at short
    · simp [corner, need] at text
    · simp [corner] at top
  obtain ⟨operands, results, below, split, size, _, only, success⟩ :=
    (apply_contract cornerFits (.binary .div)).2.2 sound (by decide)
  have parted : [.number (-1), .number leastCell] ++ [.text "below"] = operands ++ below := split
  obtain ⟨rfl, rfl⟩ := List.append_inj parted size.symm
  obtain rfl := only _ (.binary (.divLeast rfl rfl))
  exact ⟨cornerFits, mixedFits, success,
    (apply_contract mixedFits (.binary .mod)).1 _ (.mismatch "left" (by decide) (.inr ⟨_, rfl⟩) (by decide))⟩

end Machine

end LineForth
