import LineForth.Proofs.CoreWords
import LineForth.Proofs.Effects

/-! # Expressions as lines

An expression is written in postfix notation as the words of its subexpressions, in their order,
with blanks between them. Evaluating the line works out the value of the expression on top of
whatever the stack holds, or stops at the first division by zero with the operands that wait there
(`Machine.evaluate_expression`), as long as the core words mean what they are made to mean.
-/

namespace LineForth

open Number Text Literal

namespace Expression

def word : Expression → String
  | literal value _ => toString value
  | unary function _ => function.word
  | binary function _ _ => function.word

def words (expression : Expression) : List String := expression.postorder.map word

def line (expression : Expression) : String := " ".intercalate expression.words ++ "\n"

theorem graphic_word (expression : Expression) :
    expression.word.toList ≠ [] ∧ ∀ c ∈ expression.word.toList, isGraphic c = true := by
  cases expression with
  | literal value fits => exact graphic_numeral value
  | unary function operand => exact Dictionary.graphic_coreWords _ function.mem_coreWords
  | binary function left right => exact Dictionary.graphic_coreWords _ function.mem_coreWords

theorem graphic_words (expression : Expression) :
    ∀ word ∈ expression.words, word.toList ≠ [] ∧ ∀ c ∈ word.toList, isGraphic c = true :=
  List.forall_mem_map.mpr fun node _ => node.graphic_word

theorem words_unary (function : Unary) (operand : Expression) :
    (unary function operand).words = operand.words ++ [function.word] := by
  rw [words, postorder, List.map_append]
  rfl

theorem words_binary (function : Binary) (left right : Expression) :
    (binary function left right).words = left.words ++ right.words ++ [function.word] := by
  rw [words, postorder, List.map_append, List.map_append]
  rfl

theorem applications_unary (function : Unary) (operand : Expression) :
    (unary function operand).applications = operand.applications + 1 := by
  rw [applications, postorder, List.countP_append]
  rfl

theorem applications_binary (function : Binary) (left right : Expression) :
    (binary function left right).applications = left.applications + right.applications + 1 := by
  rw [applications, postorder, List.countP_append, List.countP_append]
  rfl

/-- The words up to a first fault are those of the operands that wait there, and the divider's. -/
theorem FirstFault.words_eq {expression left right : Expression} {waiting : List Expression}
    {function : Binary} (fault : expression.FirstFault waiting function left right) :
    ∃ behind, expression.words =
      (waiting ++ [left, right]).flatMap words ++ function.word :: behind := by
  obtain ⟨behind, order⟩ := fault.before
  refine ⟨behind.map word, ?_⟩
  rw [words, ← order, List.map_append, List.map_append, List.map_flatMap, List.append_assoc]
  rfl

end Expression

namespace Machine

open Expression (isApplication postorder words)

/-- The machine with the values of expressions pushed and their operations counted. -/
def compute (machine : Machine) (expressions : List Expression) : Machine :=
  { machine with
    stack := (expressions.map fun expression => .number expression.value).reverse ++ machine.stack
    applied := machine.applied + (expressions.flatMap postorder).countP isApplication }

theorem compute_singleton (machine : Machine) (expression : Expression) :
    machine.compute [expression] =
      { machine with
        stack := .number expression.value :: machine.stack
        applied := machine.applied + expression.applications } := by
  simp only [compute, List.map_cons, List.map_nil, List.reverse_singleton, List.flatMap_cons,
    List.flatMap_nil, List.append_nil, List.singleton_append]
  rfl

theorem compute_append (machine : Machine) (first second : List Expression) :
    machine.compute (first ++ second) = (machine.compute first).compute second := by
  simp only [compute, List.map_append, List.reverse_append, List.append_assoc, List.flatMap_append,
    List.countP_append, Nat.add_assoc]

section

variable {machine : Machine} (free : machine.operations = []) (core : machine.dictionary.HasCore)

include free core

/-- The words of a defined expression push its value. -/
theorem takeAll_words {expression : Expression} (defined : expression.Defined) :
    machine.takeAll expression.words = .done () (machine.compute [expression]) := by
  induction expression generalizing machine with
  | literal value fits =>
    change machine.takeAll [toString value] = _
    rw [takeAll_singleton, take_numeral machine fits]
    rfl
  | unary function operand ih =>
    have inner := ih free core (Expression.defined_unary_iff.mp defined)
    have outer := @take_core (machine.compute [operand]) free core _ _ function.mem_coreWords _
      (Operation.apply_unary function operand.value machine.stack)
    rw [Expression.words_unary, takeAll_append, inner, Run.andThen_done, takeAll_singleton, outer]
    simp only [compute_singleton, Expression.applications_unary, Expression.value, Nat.add_assoc]
  | binary function left right left_ih right_ih =>
    obtain ⟨leftDefined, rightDefined, sound⟩ := Expression.defined_binary_iff.mp defined
    have first := left_ih free core leftDefined
    have second := @right_ih (machine.compute [left]) free core rightDefined
    have outer := @take_core (machine.compute [left] |>.compute [right]) free core _ _
      function.mem_coreWords _ (Operation.apply_binary left.value sound machine.stack)
    rw [Expression.words_binary, takeAll_append, takeAll_append, first, Run.andThen_done, second,
      Run.andThen_done, takeAll_singleton, outer]
    simp only [compute_singleton, Expression.applications_binary, Expression.value, Nat.add_assoc]

/-- Expressions written one behind the other push their values. -/
theorem takeAll_flatMap_words {expressions : List Expression}
    (defined : ∀ expression ∈ expressions, expression.Defined) :
    machine.takeAll (expressions.flatMap words) = .done () (machine.compute expressions) := by
  induction expressions generalizing machine with
  | nil => rfl
  | cons expression rest ih =>
    obtain ⟨first, later⟩ := List.forall_mem_cons.mp defined
    rw [List.flatMap_cons, takeAll_append, takeAll_words free core first, Run.andThen_done,
      @ih (machine.compute [expression]) free core later, ← compute_append]
    rfl

/-- At a first fault the run halts, with the operands that wait there on the stack. -/
theorem takeAll_words_of_fault {expression left right : Expression} {waiting : List Expression}
    {function : Binary} (fault : expression.FirstFault waiting function left right) :
    machine.takeAll expression.words =
      .halt (.ofExecution .divisionByZero) (machine.compute (waiting ++ [left, right])) := by
  obtain ⟨behind, order⟩ := fault.words_eq
  have effect : (Operation.binary function).apply (machine.compute (waiting ++ [left, right])).stack =
      .fails .divisionByZero := by
    rw [compute_append]
    change (Operation.binary function).apply (.number right.value :: .number left.value :: _) = _
    rw [fault.zero, Operation.apply_fault fault.divides]
  rw [order, takeAll_append, takeAll_flatMap_words free core fault.defined, Run.andThen_done, takeAll,
    @take_core_fails (machine.compute (waiting ++ [left, right])) free core _ _
      function.mem_coreWords _ effect]
  rfl

/-- No word of an expression comes to a defect, so its line comes to its words one at a time. -/
theorem evaluate_line_silent (drained : machine.tokens = []) (expression : Expression) :
    (machine.evaluate expression.line).silent = machine.takeAll expression.words := by
  have runs : graphicRuns expression.line.toList = expression.words := by
    rw [Expression.line, graphicRuns_terminated, graphicRuns_intercalate expression.graphic_words]
  have readable : Readable expression.line.toList :=
    readable_terminated (isAscii_intercalate expression.graphic_words)
  have sound : ∀ cause, (machine.takeAll expression.words).result ≠ .error (.defect cause) := by
    intro cause
    by_cases defined : expression.Defined
    · rw [takeAll_words free core defined]
      exact nofun
    · obtain ⟨waiting, function, left, right, fault⟩ := Expression.exists_firstFault defined
      rw [takeAll_words_of_fault free core fault]
      exact nofun
  rw [← runs] at sound ⊢
  exact evaluate_silent ⟨drained, free⟩ readable sound

end

/-- An expression in postfix notation, whatever lies on the stack below. If no divisor in it is zero,
its line leaves the value of the expression on the stack and counts its operations. Otherwise it has a
first division by zero in postfix order, and the line halts there: the values of the operands that
wait are left on the stack, those of the division itself on top, and the operations in them are
counted. Either way nothing is printed, and the dictionary and the empty queues are as they were. -/
theorem evaluate_expression {machine : Machine} (idle : machine.Idle)
    (core : machine.dictionary.HasCore) (expression : Expression) :
    (expression.Defined →
      (machine.evaluate expression.line).result = .ok () ∧
        (machine.evaluate expression.line).machine =
          { machine with
            stack := .number expression.value :: machine.stack
            applied := machine.applied + expression.applications }) ∧
    (¬ expression.Defined →
      ∃ waiting function left right, expression.FirstFault waiting function left right) ∧
    (∀ waiting function left right, expression.FirstFault waiting function left right →
      (machine.evaluate expression.line).result = .error (.ofExecution .divisionByZero) ∧
        (machine.evaluate expression.line).machine =
          { machine with
            stack := ((waiting ++ [left, right]).map fun operand => .number operand.value).reverse ++
              machine.stack
            applied := machine.applied +
              ((waiting ++ [left, right]).flatMap postorder).countP isApplication }) ∧
    (machine.evaluate expression.line).trace.output = "" := by
  have silent := evaluate_line_silent idle.operations core idle.tokens expression
  refine ⟨fun defined => ?_, Expression.exists_firstFault, fun waiting function left right fault => ?_, ?_⟩
  · rw [takeAll_words idle.operations core defined, compute_singleton] at silent
    exact ⟨congrArg (·.result) silent, congrArg (·.machine) silent⟩
  · rw [takeAll_words_of_fault idle.operations core fault] at silent
    exact ⟨congrArg (·.result) silent, congrArg (·.machine) silent⟩
  · rw [← Trace.output_audible]
    refine (congrArg (·.trace.output) silent).trans ?_
    by_cases defined : expression.Defined
    · rw [takeAll_words idle.operations core defined]
      rfl
    · obtain ⟨waiting, function, left, right, fault⟩ := Expression.exists_firstFault defined
      rw [takeAll_words_of_fault idle.operations core fault]
      rfl

/-- The product wraps before the remainder of a negative number is taken; in the other expression the
sum and the dividend wait below a difference that comes to zero. -/
theorem evaluate_expression_nested :
    let machine := empty.defineCore.push [.text "below", .number (-4)]
    let defined : Expression := .binary .mod (.unary .negate (.literal 7 (by decide)))
      (.binary .mul (.literal 9223372036854775807 (by decide)) (.literal 2 (by decide)))
    let sum : Expression := .binary .add (.literal 1 (by decide)) (.literal 2 (by decide))
    let eight : Expression := .literal 8 (by decide)
    let zero : Expression := .binary .sub (.literal 5 (by decide)) (.literal 5 (by decide))
    let faulty : Expression := .binary .mul sum (.binary .div eight zero)
    machine.Idle ∧ machine.dictionary.HasCore ∧ defined.Defined ∧ ¬ faulty.Defined ∧
      faulty.FirstFault [sum] .div eight zero ∧
      defined.line = "7 NEGATE 9223372036854775807 2 * MOD\n" ∧
      (machine.evaluate defined.line).result = .ok () ∧
      (machine.evaluate defined.line).machine.stack = [.number 1, .number (-4), .text "below"] ∧
      faulty.line = "1 2 + 8 5 5 - / *\n" ∧
      (machine.evaluate faulty.line).result = .error (.ofExecution .divisionByZero) ∧
      (machine.evaluate faulty.line).machine.stack =
        [.number 0, .number 8, .number 3, .number (-4), .text "below"] := by
  intro machine defined sum eight zero faulty
  have idle : machine.Idle := ⟨rfl, rfl⟩
  have core : machine.dictionary.HasCore := Dictionary.hasCore_defineCore _
  have sound : defined.Defined := by decide +kernel
  have unsound : ¬ faulty.Defined := by decide +kernel
  have fault : faulty.FirstFault [sum] .div eight zero :=
    ⟨⟨[faulty], rfl⟩, by decide +kernel, .inl rfl, by decide +kernel⟩
  have value : defined.value = 1 := by decide +kernel
  have waiting : sum.value = 3 ∧ zero.value = 0 := by decide +kernel
  obtain ⟨result, left⟩ := (evaluate_expression idle core defined).1 sound
  obtain ⟨halted, stopped⟩ := (evaluate_expression idle core faulty).2.2.1 [sum] .div eight zero fault
  refine ⟨idle, core, sound, unsound, fault, by decide +kernel, result, ?_, by decide +kernel, halted, ?_⟩
  · rw [left, value]
    rfl
  · rw [stopped]
    simp only [List.map_cons, List.map_nil, List.reverse_cons, List.reverse_nil, List.nil_append,
      List.cons_append, waiting.1, waiting.2]
    rfl

end Machine

end LineForth
