import LineForth.Proofs.Effects
import LineForth.Proofs.Stepwise
import Std.Data.String.ToInt

/-! # The stack as it is shown

A stack of numbers is shown as their decimal values with blanks between them, the bottom one first. Stacks
that are shown alike are the same (`Stack.Numeric.eq_of_contents`). A line of what is shown puts the
numbers back on top of whatever is there (`Machine.evaluate_contents`), unless one of them is negative: a
sign is no digit, and a run that begins with one is looked up as a word.
-/

namespace LineForth

open Number Text

namespace Number

/-- A number is shown in decimal digits, behind a sign if it is negative. -/
theorem graphic_shown (value : Int) :
    (toString value).toList ≠ [] ∧ ∀ c ∈ (toString value).toList, isGraphic c = true := by
  cases value with
  | ofNat magnitude => exact graphic_numeral magnitude
  | negSucc magnitude =>
    have signed : (toString (Int.negSucc magnitude)).toList = '-' :: (toString (magnitude + 1)).toList := by
      change ("-" ++ toString (magnitude + 1)).toList = _
      rw [String.toList_append]
      rfl
    rw [signed]
    exact ⟨List.cons_ne_nil _ _, List.forall_mem_cons.mpr ⟨by decide, (graphic_numeral _).2⟩⟩

end Number

namespace Stack

def ofNumbers (values : List Int) : Stack := (values.map Cell.number).reverse

theorem ofNumbers_cons (value : Int) (values : List Int) :
    ofNumbers (value :: values) = ofNumbers values ++ [.number value] := by
  simp only [ofNumbers, List.map_cons, List.reverse_cons]

theorem Numeric.exists_ofNumbers {stack : Stack} (numeric : stack.Numeric) :
    ∃ values, stack = ofNumbers values := by
  induction stack with
  | nil => exact ⟨[], rfl⟩
  | cons top rest ih =>
    obtain ⟨⟨value, rfl⟩, below⟩ := numeric_cons.mp numeric
    obtain ⟨values, rfl⟩ := ih below
    exact ⟨values ++ [value], by simp [ofNumbers]⟩

/-- Numbers are shown as their decimal values with blanks between them, the bottom one first. -/
theorem contents_ofNumbers (values : List Int) :
    (ofNumbers values).contents = " ".intercalate (values.map toString) := by
  simp only [contents, ofNumbers, List.reverse_reverse, List.map_map]
  rfl

theorem graphic_map_toString (values : List Int) :
    ∀ word ∈ values.map toString, word.toList ≠ [] ∧ ∀ c ∈ word.toList, isGraphic c = true :=
  List.forall_mem_map.mpr fun value _ => graphic_shown value

/-- The decimal values are the runs of what is shown. -/
theorem graphicRuns_contents (values : List Int) :
    graphicRuns (ofNumbers values).contents.toList = values.map toString := by
  rw [contents_ofNumbers, graphicRuns_intercalate (graphic_map_toString values)]

theorem Numeric.eq_of_contents {first second : Stack} (numeric : first.Numeric)
    (numericSecond : second.Numeric) (same : first.contents = second.contents) : first = second := by
  obtain ⟨values, rfl⟩ := numeric.exists_ofNumbers
  obtain ⟨others, rfl⟩ := numericSecond.exists_ofNumbers
  have shown : values.map toString = others.map toString := by
    rw [← graphicRuns_contents, same, graphicRuns_contents]
  rw [List.map_injective_iff.mpr (fun _ _ => Int.repr_injective) shown]

/-- The stacks of natural numbers that a cell holds. -/
def Natural (stack : Stack) : Prop :=
  ∀ cell ∈ stack, ∃ value : Nat, value ≤ greatestCell ∧ cell = .number value

theorem Natural.numeric {stack : Stack} (natural : stack.Natural) : stack.Numeric := by
  intro cell member
  obtain ⟨value, _, same⟩ := natural cell member
  exact ⟨value, same⟩

end Stack

namespace Machine

/-- Decimal values of natural numbers put these on top of what is there. -/
theorem takeAll_shown {values : List Int} (natural : (Stack.ofNumbers values).Natural) (machine : Machine) :
    machine.takeAll (values.map toString) =
      .done () { machine with stack := .ofNumbers values ++ machine.stack } := by
  induction values generalizing machine with
  | nil => rfl
  | cons first rest ih =>
    rw [Stack.ofNumbers_cons] at natural
    obtain ⟨later, least⟩ := List.forall_mem_append.mp natural
    obtain ⟨value, fits, same⟩ := List.forall_mem_singleton.mp least
    cases same
    have pushed : machine.take (toString (value : Int)) =
        .done () { machine with stack := .number value :: machine.stack } := take_numeral machine fits
    rw [List.map_cons, takeAll, pushed, Run.andThen_done, ih later, Stack.ofNumbers_cons, List.append_assoc]
    rfl

/-- A line of what is shown of a stack of natural numbers puts them on top of whatever an idle machine
holds and changes nothing else, even where the dictionary has words under such numerals; and stacks of
numbers that are shown alike are the same. -/
theorem evaluate_contents {machine : Machine} (idle : machine.Idle) :
    (∀ shown : Stack, shown.Natural →
      (machine.evaluate (shown.contents ++ "\n")).result = .ok () ∧
      (machine.evaluate (shown.contents ++ "\n")).machine =
        { machine with stack := shown ++ machine.stack }) ∧
    ∀ first second : Stack, first.Numeric → second.Numeric → first.contents = second.contents →
      first = second := by
  refine ⟨fun shown natural => ?_, fun first second numeric others => numeric.eq_of_contents others⟩
  obtain ⟨values, rfl⟩ := natural.numeric.exists_ofNumbers
  have ascii : ∀ c ∈ (Stack.ofNumbers values).contents.toList, isAscii c = true := by
    rw [Stack.contents_ofNumbers]
    exact isAscii_intercalate (Stack.graphic_map_toString values)
  have readable := readable_terminated ascii
  have taken : machine.takeAll (graphicRuns ((Stack.ofNumbers values).contents ++ "\n").toList) =
      .done () { machine with stack := .ofNumbers values ++ machine.stack } := by
    rw [graphicRuns_terminated, Stack.graphicRuns_contents, takeAll_shown natural]
  have whole := evaluate_silent idle readable fun cause halted => by
    rw [taken] at halted
    contradiction
  rw [taken] at whole
  exact ⟨congrArg (·.result) whole, congrArg (·.machine) whole⟩

/-- The greatest number beside a numeral that the dictionary takes for leaving; and no other numbers are
shown as a negative one below another. -/
theorem evaluate_contents_redefined :
    let machine := (empty.define "7" [.bye]).push [.text "below", .number (-1)]
    let shown : Stack := [.number 0, .number 7, .number greatestCell]
    machine.Idle ∧ shown.Natural ∧ shown.contents = "9223372036854775807 7 0" ∧
      (machine.evaluate "9223372036854775807 7 0\n").result = .ok () ∧
      (machine.evaluate "9223372036854775807 7 0\n").machine =
        { machine with
          stack := [.number 0, .number 7, .number greatestCell, .number (-1), .text "below"] } ∧
      ∀ other : Stack, other.Numeric → other.contents = "-12 3" → other = [.number 3, .number (-12)] := by
  intro machine shown
  have idle : machine.Idle := ⟨rfl, rfl⟩
  have natural : shown.Natural := List.forall_mem_cons.mpr ⟨⟨0, by decide, rfl⟩,
    List.forall_mem_cons.mpr ⟨⟨7, by decide, rfl⟩,
      List.forall_mem_singleton.mpr ⟨9223372036854775807, by decide, rfl⟩⟩⟩
  have numeric : Stack.Numeric [.number 3, .number (-12)] :=
    List.forall_mem_cons.mpr ⟨⟨3, rfl⟩, List.forall_mem_singleton.mpr ⟨-12, rfl⟩⟩
  have line : shown.contents = "9223372036854775807 7 0" := by decide
  obtain ⟨result, left⟩ := (evaluate_contents idle).1 shown natural
  rw [line] at result left
  exact ⟨idle, natural, line, result, left, fun other others same =>
    (evaluate_contents idle).2 other _ others numeric (same.trans (by decide))⟩

end Machine

end LineForth
