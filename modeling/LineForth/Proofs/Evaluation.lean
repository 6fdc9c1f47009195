import LineForth.Proofs.Stepwise

/-! # Evaluation is interpretation run by run

A round resolves all numbers of its batch before it applies the operations of the word behind them,
and the queues and records of a machine have no part in the meaning of a line. So what evaluation
comes to on an idle machine is what its runs come to one by one, with every literal read as the
machine reads it (`evaluate_readNumber`). `evaluate_interpretation` says so with the decimal values of
the literals.
-/

namespace LineForth

open Number Text

namespace Machine

/-- A line that passes the checks comes to what its runs come to one by one, with every literal read
as the machine reads it. -/
theorem evaluate_readNumber {machine : Machine} (idle : machine.Idle) {line : String}
    (readable : Readable line.toList) :
    (machine.evaluate line).interpretation =
      .ofRuns Token.readNumber machine.workspace (graphicRuns line.toList) := by
  rw [← Run.interpretation_bare, evaluate_bare idle readable]
  exact takeAll_interpretation machine _

/-- A line that passes the checks, and in which no run of digits is longer than a literal may be,
comes to what its runs of graphic characters come to when they are taken one after the other: each
run of digits for its decimal value, each other run for the operations of its entry. The halt, the
dictionary, the stack, the count and all that is printed are the same. -/
theorem evaluate_interpretation {machine : Machine} (idle : machine.Idle) {line : String}
    (readable : Readable line.toList)
    (short : ∀ run ∈ graphicRuns line.toList, (∀ c ∈ run.toList, c.isDigit = true) →
      run.length ≤ Literal.digitLimit) :
    (machine.evaluate line).interpretation =
      .ofRuns decimal machine.workspace (graphicRuns line.toList) := by
  rw [evaluate_readNumber idle readable]
  apply Interpretation.ofRuns_readNumber _ begun_of_mem_graphicRuns
  intro run member overlong
  exact Nat.not_lt.mpr (short run member overlong.digits) overlong.long

/-- A word that fails at its second operation: its first one stands, and nothing behind it is read. -/
theorem evaluate_interpretation_failing :
    let machine := empty.define "TRY" [.dup, .binary .div]
    let line := " 7\t0 TRY 5 \n"
    machine.Idle ∧ Readable line.toList ∧
      (∀ run ∈ graphicRuns line.toList, (∀ c ∈ run.toList, c.isDigit = true) →
        run.length ≤ Literal.digitLimit) ∧
      (machine.evaluate line).interpretation.result = .error (.ofExecution .divisionByZero) ∧
      (machine.evaluate line).interpretation.workspace.stack = [.number 0, .number 0, .number 7] ∧
      (machine.evaluate line).interpretation.workspace.applied = 1 := by
  intro machine line
  have idle : machine.Idle := ⟨rfl, rfl⟩
  have readable : Readable line.toList := (ScanError.ofLine?_eq_none_iff _).mp (by decide)
  have few : ∀ run ∈ graphicRuns line.toList, run.length ≤ Literal.digitLimit := by decide
  have short : ∀ run ∈ graphicRuns line.toList, (∀ c ∈ run.toList, c.isDigit = true) →
      run.length ≤ Literal.digitLimit := fun run member _ => few run member
  rw [evaluate_interpretation idle readable short]
  exact ⟨idle, readable, short, by decide +kernel, by decide +kernel, by decide +kernel⟩

end Machine

end LineForth
