import LineForth.Proofs.Contract
import LineForth.Proofs.Postfix

/-! # Lines that come to the same

A line of numerals and core words turns the stack into another one word by word (`Turns`), and evaluating
it leaves that stack. So two such lines may stand for each other where they lead to the same stack, which
is a matter of arithmetic on numbers that cells hold: the least of them is its own negation and its own
magnitude, and the laws hold for it as well (`Machine.evaluate_interchange`).
-/

namespace LineForth

open Number Text

namespace Number

theorem reduce_add_reduce (left right : Int) : reduce (left + reduce right) = reduce (left + right) := by
  simp only [reduce, BitVec.ofInt_add, BitVec.ofInt_toInt]

theorem reduce_neg_reduce (value : Int) : reduce (-reduce value) = reduce (-value) := by
  simp only [reduce, BitVec.ofInt_neg, BitVec.ofInt_toInt]

variable {value : Int} (fits : FitsCell value)

include fits

/-- Only the least number is not negated to a number of a cell; it is then its own negation. -/
theorem reduce_neg : reduce (-value) = if value = leastCell then leastCell else -value := by
  split
  · next least =>
    subst least
    decide
  · next other =>
    refine reduce_eq_self ?_
    simp only [FitsCell, leastCell, greatestCell] at fits other ⊢
    omega

theorem reduce_neg_neg : reduce (-reduce (-value)) = value := by
  rw [reduce_neg_reduce, Int.neg_neg, reduce_eq_self fits]

theorem abs_reduce_neg : |reduce (-value)| = |value| := by
  rw [reduce_neg fits]
  split
  · next least => rw [least]
  · exact abs_neg value

/-- The magnitude is the greater of a number and its negation. -/
theorem reduce_max_reduce_neg : reduce (value ⊔ reduce (-value)) = reduce |value| := by
  rw [reduce_neg fits]
  split
  · next least =>
    subst least
    decide
  · rfl

end Number

/-- Numerals and core words that succeed one after the other, from one stack to another. -/
inductive Turns : List String → Stack → Stack → Prop
  | nil {stack : Stack} : Turns [] stack stack
  | numeral {words : List String} {stack next : Stack} (value : Nat) :
      value ≤ greatestCell → Turns words (.number value :: stack) next →
      Turns (toString value :: words) stack next
  | core {words : List String} {name : String} {operation : Operation} {stack middle next : Stack} :
      (name, operation) ∈ Dictionary.coreWords → operation.apply stack = .leaves middle →
      Turns words middle next → Turns (name :: words) stack next

namespace Turns

variable {words : List String} {rest next : Stack}

theorem unary (function : Unary) {operand : Int}
    (later : Turns words (.number (reduce (function.exact operand)) :: rest) next) :
    Turns (function.word :: words) (.number operand :: rest) next :=
  .core function.mem_coreWords (Operation.apply_unary function operand rest) later

theorem binary (function : Binary) {left right : Int} (sound : ¬ (function.Divides ∧ right = 0))
    (later : Turns words (.number (reduce (function.exact left right)) :: rest) next) :
    Turns (function.word :: words) (.number right :: .number left :: rest) next :=
  .core function.mem_coreWords (Operation.apply_binary left sound rest) later

theorem total (function : Binary) (total : ¬ function.Divides) {left right : Int}
    (later : Turns words (.number (reduce (function.exact left right)) :: rest) next) :
    Turns (function.word :: words) (.number right :: .number left :: rest) next :=
  .binary function (fun fault => total fault.1) later

theorem dup {top : Cell} (later : Turns words (top :: top :: rest) next) :
    Turns ("DUP" :: words) (top :: rest) next :=
  .core (show ("DUP", .dup) ∈ Dictionary.coreWords by decide) rfl later

theorem nop (later : Turns words rest next) : Turns ("NOP" :: words) rest next :=
  .core (show ("NOP", .nop) ∈ Dictionary.coreWords by decide) rfl later

theorem graphic {stack : Stack} (turns : Turns words stack next) :
    ∀ word ∈ words, word.toList ≠ [] ∧ ∀ c ∈ word.toList, isGraphic c = true := by
  induction turns with
  | nil => exact List.forall_mem_nil _
  | numeral value _ _ ih => exact List.forall_mem_cons.mpr ⟨graphic_numeral value, ih⟩
  | core entry _ _ ih => exact List.forall_mem_cons.mpr ⟨Dictionary.graphic_coreWords _ entry, ih⟩

end Turns

/-- Two lists of words turn the stack into the same one. -/
def Alike (stack : Stack) (first second : List String) : Prop :=
  ∃ next, Turns first stack next ∧ Turns second stack next

section Laws

variable {operand left right : Int} (rest : Stack)

/-- A comparison with zero is a comparison with the numeral. -/
theorem alike_compareZero (comparison : Comparison) (operand : Int) :
    Alike (.number operand :: rest) [(Unary.compareZero comparison).word]
      [toString 0, (Binary.compare comparison).word] :=
  ⟨_, .unary (.compareZero comparison) .nil,
    .numeral 0 (by decide) (.total (.compare comparison) (by simp [Binary.Divides]) .nil)⟩

theorem alike_abs (fits : FitsCell operand) :
    Alike (.number operand :: rest) ["ABS"] ["DUP", "NEGATE", "MAX"] := by
  have greater : Turns ["DUP", "NEGATE", "MAX"] (.number operand :: rest)
      (.number (reduce (operand ⊔ reduce (-operand))) :: rest) :=
    .dup (.unary .negate (.total .max (by decide) .nil))
  rw [reduce_max_reduce_neg fits] at greater
  exact ⟨_, .unary .abs .nil, greater⟩

theorem alike_negate_negate (fits : FitsCell operand) :
    Alike (.number operand :: rest) ["NEGATE", "NEGATE"] ["NOP"] := by
  have twice : Turns ["NEGATE", "NEGATE"] (.number operand :: rest)
      (.number (reduce (-reduce (-operand))) :: rest) := .unary .negate (.unary .negate .nil)
  rw [reduce_neg_neg fits] at twice
  exact ⟨_, twice, .nop .nil⟩

theorem alike_sub (left right : Int) :
    Alike (.number right :: .number left :: rest) ["-"] ["NEGATE", "+"] := by
  have added : Turns ["NEGATE", "+"] (.number right :: .number left :: rest)
      (.number (reduce (left + reduce (-right))) :: rest) :=
    .unary .negate (.total .add (by decide) .nil)
  rw [reduce_add_reduce, ← Int.sub_eq_add_neg] at added
  exact ⟨_, .total .sub (by decide) .nil, added⟩

/-- A remainder does not depend on the sign of the divisor. -/
theorem alike_mod (fits : FitsCell right) (divisor : right ≠ 0) (left : Int) :
    Alike (.number right :: .number left :: rest) ["MOD"] ["NEGATE", "MOD"] := by
  have other : reduce (-right) ≠ 0 := by
    rw [← abs_pos, abs_reduce_neg fits]
    exact abs_pos.mpr divisor
  have negated : Turns ["NEGATE", "MOD"] (.number right :: .number left :: rest)
      (.number (reduce (left % |reduce (-right)|)) :: rest) :=
    .unary .negate (.binary .mod (fun fault => other fault.2) .nil)
  rw [abs_reduce_neg fits] at negated
  exact ⟨_, .binary .mod (fun fault => divisor fault.2) .nil, negated⟩

theorem reduce_compare (comparison : Comparison) (left right : Int) :
    reduce ((Binary.compare comparison).exact left right) = (Binary.compare comparison).exact left right :=
  reduce_eq_self fitsCell_flag

theorem alike_unequal (left right : Int) :
    Alike (.number right :: .number left :: rest) ["<>"] ["=", "0="] := by
  have denied : Turns ["=", "0="] (.number right :: .number left :: rest)
      (.number (reduce (Unary.exact (.compareZero .equal)
        (reduce ((Binary.compare .equal).exact left right)))) :: rest) :=
    .total (.compare .equal) (by decide) (.unary (.compareZero .equal) .nil)
  have same : Unary.exact (.compareZero .equal) ((Binary.compare .equal).exact left right) =
      (Binary.compare .unequal).exact left right := by
    by_cases equal : left = right <;> simp [Unary.exact, Binary.exact, Comparison.Holds, equal]
  rw [reduce_compare, same] at denied
  exact ⟨_, .total (.compare .unequal) (by decide) .nil, denied⟩

/-- The three ways in which two numbers can stand to each other. -/
def orders : List Comparison := [.less, .equal, .greater]

theorem turns_compare (comparison : Comparison) (left right : Int) :
    Turns [(Binary.compare comparison).word] (.number right :: .number left :: rest)
      (.number (if comparison.Holds left right then 1 else 0) :: rest) := by
  have compared : Turns [(Binary.compare comparison).word] (.number right :: .number left :: rest)
      (.number (reduce ((Binary.compare comparison).exact left right)) :: rest) :=
    .total (.compare comparison) (by simp [Binary.Divides]) .nil
  rw [reduce_compare] at compared
  exact compared

/-- Of the three orders one holds, and the others do not. -/
theorem exists_order (left right : Int) :
    ∃ holding ∈ orders, ∀ comparison ∈ orders, comparison.Holds left right ↔ comparison = holding := by
  have exclusive (holding : Comparison) (held : holding ∈ orders) (holds : holding.Holds left right) :
      ∃ holding ∈ orders, ∀ comparison ∈ orders, comparison.Holds left right ↔ comparison = holding := by
    refine ⟨holding, held, fun comparison listed => ⟨fun other => ?_, fun same => same ▸ holds⟩⟩
    cases holding <;> cases comparison <;> simp [orders, Comparison.Holds] at * <;> omega
  rcases Int.lt_trichotomy left right with less | equal | greater
  · exact exclusive .less (by decide) less
  · exact exclusive .equal (by decide) equal
  · exact exclusive .greater (by decide) greater

end Laws

namespace Machine

/-- The line goes well and leaves this stack. -/
def Gives (machine : Machine) (line : String) (stack : Stack) : Prop :=
  (machine.evaluate (line ++ "\n")).result = .ok () ∧
    (machine.evaluate (line ++ "\n")).machine.stack = stack

/-- Both lines go well and leave the same stack. -/
def Interchanges (machine : Machine) (first second : String) : Prop :=
  ∃ stack, machine.Gives first stack ∧ machine.Gives second stack

section

variable {machine : Machine} (free : machine.operations = []) (core : machine.dictionary.HasCore)
  {words : List String} {next : Stack}

include free core

theorem takeAll_of_turns (turns : Turns words machine.stack next) :
    ∃ count, machine.takeAll words =
      .done () { machine with stack := next, applied := machine.applied + count } := by
  generalize same : machine.stack = stack at turns
  induction turns generalizing machine with
  | nil => exact ⟨0, by rw [← same]; rfl⟩
  | numeral value fits _ ih =>
    obtain ⟨count, later⟩ := @ih { machine with stack := .number value :: machine.stack } free core
      (by rw [same])
    refine ⟨count, ?_⟩
    rw [takeAll, take_numeral machine fits]
    exact later
  | @core words name operation stack middle next entry effect _ ih =>
    have first := @take_core machine free core _ _ entry middle (same ▸ effect)
    obtain ⟨count, later⟩ :=
      @ih { machine with stack := middle, applied := machine.applied + 1 } free core rfl
    refine ⟨1 + count, ?_⟩
    rw [takeAll, first, Run.andThen_done, later, Nat.add_assoc]

end

/-- A line leaves the stack that its words turn the stack into. -/
theorem gives_of_turns {machine : Machine} (idle : machine.Idle) (core : machine.dictionary.HasCore)
    {words : List String} {next : Stack} (turns : Turns words machine.stack next) {line : String}
    (written : " ".intercalate words = line) : machine.Gives line next := by
  subst written
  have runs : graphicRuns (" ".intercalate words ++ "\n").toList = words := by
    rw [graphicRuns_terminated, graphicRuns_intercalate turns.graphic]
  have readable : Readable (" ".intercalate words ++ "\n").toList :=
    readable_terminated (isAscii_intercalate turns.graphic)
  obtain ⟨count, taken⟩ := takeAll_of_turns idle.operations core turns
  have whole := evaluate_bare idle readable
  rw [runs, taken] at whole
  exact ⟨congrArg (·.result) whole, congrArg (·.machine.stack) whole⟩

theorem interchanges_of_alike {machine : Machine} (idle : machine.Idle)
    (core : machine.dictionary.HasCore) {words others : List String} {stack : Stack}
    (shape : machine.stack = stack) (alike : Alike stack words others) {first second : String}
    (written : " ".intercalate words = first) (writtenOther : " ".intercalate others = second) :
    machine.Interchanges first second := by
  subst shape
  obtain ⟨next, left, right⟩ := alike
  exact ⟨next, gives_of_turns idle core left written, gives_of_turns idle core right writtenOther⟩

/-- Lines that may stand for each other where a number is on top. -/
def oneOperandLaws : List (String × String) :=
  [("0=", "0 ="), ("0<", "0 <"), ("0>", "0 >"), ("0<>", "0 <>"), ("ABS", "DUP NEGATE MAX"),
   ("NEGATE NEGATE", "NOP")]

/-- Lines that may stand for each other where two numbers are on top. -/
def twoOperandLaws : List (String × String) := [("-", "NEGATE +"), ("<>", "= 0=")]

/-- Laws that hold of all numbers of cells, the least one included, as long as the core words mean what
they are made to mean. -/
theorem evaluate_interchange {machine : Machine} (idle : machine.Idle)
    (core : machine.dictionary.HasCore) (fits : machine.stack.Fits) :
    (∀ operand rest, machine.stack = .number operand :: rest →
      ∀ law ∈ oneOperandLaws, machine.Interchanges law.1 law.2) ∧
    (∀ left right rest, machine.stack = .number right :: .number left :: rest →
      (∀ law ∈ twoOperandLaws, machine.Interchanges law.1 law.2) ∧
      (right ≠ 0 → machine.Interchanges "MOD" "NEGATE MOD") ∧
      (∃ holding ∈ orders, ∀ comparison ∈ orders, machine.Gives (Binary.compare comparison).word
        (.number (if comparison = holding then 1 else 0) :: rest)) ∧
      ∃ greater lesser, machine.Gives "MAX" (.number greater :: rest) ∧
        machine.Gives "MIN" (.number lesser :: rest) ∧
        wrap (greater + lesser) = wrap (left + right)) := by
  refine ⟨fun operand rest shape => ?_, fun left right rest shape => ⟨?_, ?_, ?_, ?_⟩⟩
  · have fitsOperand : FitsCell operand := fits operand (by simp [shape])
    have zero (comparison : Comparison) := alike_compareZero rest comparison operand
    simp only [oneOperandLaws, List.forall_mem_cons]
    refine ⟨?_, ?_, ?_, ?_, ?_, ?_, List.forall_mem_nil _⟩
    · exact interchanges_of_alike idle core shape (zero .equal) rfl rfl
    · exact interchanges_of_alike idle core shape (zero .less) rfl rfl
    · exact interchanges_of_alike idle core shape (zero .greater) rfl rfl
    · exact interchanges_of_alike idle core shape (zero .unequal) rfl rfl
    · exact interchanges_of_alike idle core shape (alike_abs rest fitsOperand) rfl rfl
    · exact interchanges_of_alike idle core shape (alike_negate_negate rest fitsOperand) rfl rfl
  · simp only [twoOperandLaws, List.forall_mem_cons]
    refine ⟨?_, ?_, List.forall_mem_nil _⟩
    · exact interchanges_of_alike idle core shape (alike_sub rest left right) rfl rfl
    · exact interchanges_of_alike idle core shape (alike_unequal rest left right) rfl rfl
  · intro divisor
    have fitsRight : FitsCell right := fits right (by simp [shape])
    exact interchanges_of_alike idle core shape (alike_mod rest fitsRight divisor left) rfl rfl
  · obtain ⟨holding, listed, only⟩ := exists_order left right
    refine ⟨holding, listed, fun comparison other => ?_⟩
    have compared := turns_compare rest comparison left right
    rw [← shape, if_congr (only comparison other) rfl rfl] at compared
    exact gives_of_turns idle core compared rfl
  · have greater : Turns ["MAX"] machine.stack (.number (reduce (left ⊔ right)) :: rest) := by
      rw [shape]
      exact .total .max (by decide) .nil
    have lesser : Turns ["MIN"] machine.stack (.number (reduce (left ⊓ right)) :: rest) := by
      rw [shape]
      exact .total .min (by decide) .nil
    refine ⟨_, _, gives_of_turns idle core greater rfl, gives_of_turns idle core lesser rfl, ?_⟩
    rw [wrap_eq_reduce, wrap_eq_reduce, reduce_add_reduce, Int.add_comm, reduce_add_reduce,
      Int.add_comm, max_add_min]

/-- The least number as the divisor of a remainder, as its own magnitude and beside its negation. -/
theorem evaluate_interchange_least :
    let machine := empty.defineCore.push [.text "below", .number (-7), .number leastCell]
    machine.Idle ∧ machine.dictionary.HasCore ∧ machine.stack.Fits ∧
      machine.Interchanges "ABS" "DUP NEGATE MAX" ∧
      machine.Interchanges "NEGATE NEGATE" "NOP" ∧
      machine.Interchanges "-" "NEGATE +" ∧
      machine.Interchanges "MOD" "NEGATE MOD" ∧
      (machine.evaluate "NEGATE MOD\n").machine.stack = [.number 9223372036854775801, .text "below"] ∧
      ∃ holding ∈ orders, ∀ comparison ∈ orders, machine.Gives (Binary.compare comparison).word
        [.number (if comparison = holding then 1 else 0), .text "below"] := by
  intro machine
  have idle : machine.Idle := ⟨rfl, rfl⟩
  have core : machine.dictionary.HasCore := Dictionary.hasCore_defineCore _
  have below : Stack.Fits [.text "below"] := by simp [Stack.Fits]
  have fits : machine.stack.Fits := .cons_number (by decide) (.cons_number (by decide) below)
  obtain ⟨one, two⟩ := evaluate_interchange idle core fits
  have alone := one leastCell [.number (-7), .text "below"] rfl
  obtain ⟨both, remainder, order, -⟩ := two (-7) leastCell [.text "below"] rfl
  exact ⟨idle, core, fits, alone ("ABS", "DUP NEGATE MAX") (by decide),
    alone ("NEGATE NEGATE", "NOP") (by decide), both ("-", "NEGATE +") (by decide),
    remainder (by decide), by decide +kernel, order⟩

end Machine

end LineForth
