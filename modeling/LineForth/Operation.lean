import LineForth.Cell
import LineForth.Error
import LineForth.Number.TwosComplement

/-! # Operations

The primitive operations on the data stack. The numeric ones are functions on unbounded integers of
one or two operands, whose result is wrapped to what a cell holds; `Operation.apply` says what each
needs of the stack and leaves on it. Nothing is taken off a stack that an operation fails on.
-/

namespace LineForth

inductive Comparison
  | equal
  | unequal
  | less
  | greater
deriving DecidableEq, Repr

inductive Unary
  | abs
  | negate
  | compareZero (comparison : Comparison)
deriving DecidableEq, Repr

inductive Binary
  | add
  | sub
  | mul
  | div
  | mod
  | max
  | min
  | compare (comparison : Comparison)
deriving DecidableEq, Repr

/-- The operations that words are made of. -/
inductive Operation
  | nop
  | drop
  | dup
  | bye
  | unary (function : Unary)
  | binary (function : Binary)
deriving DecidableEq, Repr

/-- What becomes of a stack that an operation is applied to. -/
inductive Effect
  /-- The operation succeeds and leaves this stack. -/
  | leaves (stack : Stack)
  /-- The operation fails and leaves the stack as it was. -/
  | fails (error : ExecutionError)
  /-- The operation takes leave of the user. -/
  | bye
deriving DecidableEq, Repr

/-- One for a comparison that holds, zero for one that does not. -/
def Comparison.eval (comparison : Comparison) (left right : Int) : Int :=
  match comparison with
  | equal => if left = right then 1 else 0
  | unequal => if left ≠ right then 1 else 0
  | less => if left < right then 1 else 0
  | greater => if left > right then 1 else 0

/-- The result of a numeric operation on one operand, not yet wrapped. -/
def Unary.eval (function : Unary) (operand : Int) : Int :=
  match function with
  | abs => operand.natAbs
  | negate => -operand
  | compareZero comparison => comparison.eval operand 0

/-- The result of a numeric operation on two operands, not yet wrapped. A quotient is rounded toward
zero; a remainder is never negative, whatever the signs of the operands. -/
def Binary.eval (function : Binary) (left right : Int) : Except ExecutionError Int :=
  match function with
  | add => .ok (left + right)
  | sub => .ok (left - right)
  | mul => .ok (left * right)
  | div => if right = 0 then .error .divisionByZero else .ok (left.tdiv right)
  | mod => if right = 0 then .error .divisionByZero else .ok (left.emod right)
  | max => .ok (Max.max left right)
  | min => .ok (Min.min left right)
  | compare comparison => .ok (comparison.eval left right)

namespace Operation

/-- Apply an operation to a stack, where a function says what is kept of a numeric result: first the
number of cells is checked, then their kinds, then the divisor. The upper of two operands is the right
one. -/
def applyKeeping (keep : Int → Int) : Operation → Stack → Effect
  | nop, stack => .leaves stack
  | drop, _ :: rest => .leaves rest
  | dup, top :: rest => .leaves (top :: top :: rest)
  | bye, _ => .bye
  | unary function, .number operand :: rest =>
      .leaves (.number (keep (function.eval operand)) :: rest)
  | unary _, .text _ :: _ => .fails .typeMismatch
  | binary function, .number right :: .number left :: rest =>
      match function.eval left right with
      | .ok value => .leaves (.number (keep value) :: rest)
      | .error cause => .fails cause
  | binary _, _ :: _ :: _ => .fails .typeMismatch
  | drop, [] | dup, [] | unary _, [] | binary _, [] | binary _, [_] => .fails .stackUnderflow

/-- Apply an operation to a stack of cells, which keep numbers wrapped. -/
def apply (operation : Operation) (stack : Stack) : Effect := operation.applyKeeping Number.wrap stack

def name : Operation → String
  | nop => "NOP"
  | drop => "DROP"
  | dup => "DUP"
  | bye => "BYE"
  | unary .abs => "ABS"
  | unary .negate => "NEGATE"
  | unary (.compareZero .equal) => "ZERO_EQ"
  | unary (.compareZero .unequal) => "ZERO_NE"
  | unary (.compareZero .less) => "ZERO_LT"
  | unary (.compareZero .greater) => "ZERO_GT"
  | binary .add => "ADD"
  | binary .sub => "SUB"
  | binary .mul => "MUL"
  | binary .div => "DIV"
  | binary .mod => "MOD"
  | binary .max => "MAX"
  | binary .min => "MIN"
  | binary (.compare .equal) => "CMP_EQ"
  | binary (.compare .unequal) => "CMP_NE"
  | binary (.compare .less) => "CMP_LT"
  | binary (.compare .greater) => "CMP_GT"

def all : List Operation :=
  [nop, drop, dup, bye, unary .abs, unary .negate] ++
    ([Comparison.equal, .unequal, .less, .greater].map fun comparison =>
      unary (.compareZero comparison)) ++
    [binary .add, binary .sub, binary .mul, binary .div, binary .mod, binary .max, binary .min] ++
    [Comparison.equal, .unequal, .less, .greater].map fun comparison =>
      binary (.compare comparison)

def ofName? (name : String) : Option Operation := all.find? (·.name == name)

theorem ofName?_name (operation : Operation) : ofName? operation.name = some operation := by
  rcases operation with _ | _ | _ | _ | (_ | _ | comparison) |
    (_ | _ | _ | _ | _ | _ | _ | comparison) <;> first | rfl | (cases comparison <;> rfl)

def renderAll (operations : List Operation) : String :=
  Text.bracketed (operations.map name)

end Operation

end LineForth
