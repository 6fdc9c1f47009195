import LineForth.Operation
import Mathlib.Algebra.Order.Group.Unbundled.Int

/-! # Expressions

Trees of numbers and numeric operations. The value of a node is worked out in the integers and then
reduced to two's complement of 64 bits. Its subexpressions are listed in postfix order, operands
before what is made of them, and evaluation comes to grief at the first of them that divides by zero:
before it stand the operands that are complete and wait, one behind the other
(`Expression.exists_firstFault`). Nothing here speaks of stacks or lines.
-/

namespace LineForth

open Number

def Comparison.Holds : Comparison → Int → Int → Prop
  | equal, left, right => left = right
  | unequal, left, right => left ≠ right
  | less, left, right => left < right
  | greater, left, right => right < left

instance (comparison : Comparison) (left right : Int) : Decidable (comparison.Holds left right) :=
  match comparison with
  | .equal => inferInstanceAs (Decidable (left = right))
  | .unequal => inferInstanceAs (Decidable (left ≠ right))
  | .less => inferInstanceAs (Decidable (left < right))
  | .greater => inferInstanceAs (Decidable (right < left))

def Unary.exact : Unary → Int → Int
  | abs, operand => |operand|
  | negate, operand => -operand
  | compareZero comparison, operand => if comparison.Holds operand 0 then 1 else 0

/-- The result in the integers of an operation on two operands. Quotients are truncated, and
remainders are the least that are not negative. -/
def Binary.exact : Binary → Int → Int → Int
  | add, left, right => left + right
  | sub, left, right => left - right
  | mul, left, right => left * right
  | div, left, right => left.tdiv right
  | mod, left, right => left % |right|
  | max, left, right => left ⊔ right
  | min, left, right => left ⊓ right
  | compare comparison, left, right => if comparison.Holds left right then 1 else 0

/-- The operations that a zero on the right is no operand of. -/
def Binary.Divides (function : Binary) : Prop := function = div ∨ function = mod

instance (function : Binary) : Decidable function.Divides :=
  inferInstanceAs (Decidable (_ ∨ _))

/-- A number reduced to 64 bits in two's complement. -/
def Number.reduce (value : Int) : Int := (BitVec.ofInt 64 value).toInt

theorem Number.wrap_eq_reduce (value : Int) : wrap value = reduce value :=
  (BitVec.toInt_ofInt value).symm

theorem Comparison.eval_eq (comparison : Comparison) (left right : Int) :
    comparison.eval left right = if comparison.Holds left right then 1 else 0 := by
  cases comparison <;> rfl

theorem Unary.eval_eq (function : Unary) (operand : Int) :
    function.eval operand = function.exact operand := by
  cases function with
  | abs => exact Int.natCast_natAbs operand
  | negate => rfl
  | compareZero comparison => exact comparison.eval_eq operand 0

theorem Binary.eval_of_fault {function : Binary} (divides : function.Divides) (left : Int) :
    function.eval left 0 = .error .divisionByZero := by
  rcases divides with rfl | rfl <;> rfl

theorem Binary.eval_of_sound {function : Binary} {right : Int} (left : Int)
    (sound : ¬ (function.Divides ∧ right = 0)) :
    function.eval left right = .ok (function.exact left right) := by
  cases function with
  | div => exact if_neg fun zero => sound ⟨.inl rfl, zero⟩
  | mod =>
    rw [eval, if_neg fun zero => sound ⟨.inr rfl, zero⟩, exact, Int.emod_abs]
    rfl
  | compare comparison => exact congrArg Except.ok (comparison.eval_eq left right)
  | add | sub | mul | max | min => rfl

/-- Trees of numeric operations over numbers that a line can hold. -/
inductive Expression
  | literal (value : Nat) (fits : value ≤ greatestCell)
  | unary (function : Unary) (operand : Expression)
  | binary (function : Binary) (left right : Expression)

namespace Expression

/-- The value of an expression, reduced at every operation. -/
def value : Expression → Int
  | literal value _ => value
  | unary function operand => reduce (function.exact operand.value)
  | binary function left right => reduce (function.exact left.value right.value)

/-- All subexpressions in postfix order, the expression itself last. -/
def postorder : Expression → List Expression
  | literal value fits => [literal value fits]
  | unary function operand => operand.postorder ++ [unary function operand]
  | binary function left right => left.postorder ++ right.postorder ++ [binary function left right]

def isApplication : Expression → Bool
  | literal .. => false
  | unary .. | binary .. => true

def applications (expression : Expression) : Nat := expression.postorder.countP isApplication

def DividesByZero : Expression → Prop
  | binary function _ right => function.Divides ∧ right.value = 0
  | literal .. | unary .. => False

instance (expression : Expression) : Decidable expression.DividesByZero :=
  match expression with
  | binary function _ right => inferInstanceAs (Decidable (function.Divides ∧ right.value = 0))
  | literal .. | unary .. => isFalse id

/-- The expressions that nowhere divide by zero. -/
def Defined (expression : Expression) : Prop :=
  ∀ node ∈ expression.postorder, ¬ node.DividesByZero

instance (expression : Expression) : Decidable expression.Defined :=
  inferInstanceAs (Decidable (∀ node ∈ expression.postorder, ¬ node.DividesByZero))

/-- The first division by zero in postfix order. What stands before it are whole expressions without
a division by zero, among which its own two operands are the last. -/
structure FirstFault (expression : Expression) (waiting : List Expression) (function : Binary)
    (left right : Expression) : Prop where
  before : (waiting ++ [left, right]).flatMap postorder ++ [binary function left right] <+:
    expression.postorder
  defined : ∀ operand ∈ waiting ++ [left, right], operand.Defined
  divides : function.Divides
  zero : right.value = 0

variable {expression left right : Expression}

theorem defined_literal (value : Nat) (fits : value ≤ greatestCell) : (literal value fits).Defined :=
  List.forall_mem_singleton.mpr id

theorem defined_unary_iff {function : Unary} :
    (unary function expression).Defined ↔ expression.Defined := by
  rw [Defined, postorder, List.forall_mem_append, List.forall_mem_singleton]
  exact and_iff_left id

theorem defined_binary_iff {function : Binary} :
    (binary function left right).Defined ↔
      left.Defined ∧ right.Defined ∧ ¬ (function.Divides ∧ right.value = 0) := by
  rw [Defined, postorder, List.forall_mem_append, List.forall_mem_append, List.forall_mem_singleton,
    and_assoc]
  rfl

namespace FirstFault

variable {waiting : List Expression} {function : Binary} {first second : Expression}

/-- A first fault stays the first where its expression stands first. -/
theorem extend (fault : expression.FirstFault waiting function first second) {whole : Expression}
    (front : expression.postorder <+: whole.postorder) :
    whole.FirstFault waiting function first second :=
  { fault with before := fault.before.trans front }

/-- The first fault of a right operand, behind a left one that is complete. -/
theorem of_right (fault : right.FirstFault waiting function first second) (defined : left.Defined)
    (outer : Binary) : (binary outer left right).FirstFault (left :: waiting) function first second where
  before := by
    rw [List.cons_append, List.flatMap_cons, List.append_assoc, postorder, List.append_assoc]
    exact (List.prefix_append_right_inj _).mpr (fault.before.trans (List.prefix_append ..))
  defined := List.forall_mem_cons.mpr ⟨defined, fault.defined⟩
  divides := fault.divides
  zero := fault.zero

end FirstFault

/-- An expression is either defined or has a first fault. -/
theorem exists_firstFault (undefined : ¬ expression.Defined) :
    ∃ waiting function left right, expression.FirstFault waiting function left right := by
  induction expression with
  | literal value fits => exact absurd (defined_literal value fits) undefined
  | unary function operand ih =>
    obtain ⟨waiting, divider, left, right, fault⟩ := ih (mt defined_unary_iff.mpr undefined)
    exact ⟨waiting, divider, left, right, fault.extend (List.prefix_append ..)⟩
  | binary function left right left_ih right_ih =>
    by_cases leftDefined : left.Defined
    · by_cases rightDefined : right.Defined
      · -- Both operands are complete, so the fault is at the root.
        have fault : function.Divides ∧ right.value = 0 := by
          by_contra sound
          exact undefined (defined_binary_iff.mpr ⟨leftDefined, rightDefined, sound⟩)
        refine ⟨[], function, left, right, ?_, ?_, fault.1, fault.2⟩
        · simp only [List.nil_append, List.flatMap_cons, List.flatMap_nil, List.append_nil, postorder,
            List.prefix_refl]
        · exact List.forall_mem_cons.mpr ⟨leftDefined, List.forall_mem_singleton.mpr rightDefined⟩
      · obtain ⟨waiting, divider, first, second, fault⟩ := right_ih rightDefined
        exact ⟨left :: waiting, divider, first, second, fault.of_right leftDefined function⟩
    · obtain ⟨waiting, divider, first, second, fault⟩ := left_ih leftDefined
      refine ⟨waiting, divider, first, second, fault.extend ?_⟩
      rw [postorder, List.append_assoc]
      exact List.prefix_append ..

end Expression

end LineForth
