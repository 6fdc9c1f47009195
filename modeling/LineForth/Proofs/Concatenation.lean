import LineForth.Proofs.Recovery
import LineForth.Proofs.Stepwise

/-! # Lines joined

Where one line ends and the next begins is of no importance to evaluation, as long as the first line
leaves no run open. The numbers at its end are then read in one batch with the first word of the
second, and a halt may fall anywhere in that batch; all the same the joined line comes to what the
two come to one after the other (`Machine.evaluate_append`), since both come to their runs taken one
at a time.
-/

namespace LineForth

open Number Text Literal

/-- The texts in which no run of digits is longer than a literal may be. -/
def Text.BriefLiterals (text : List Char) : Prop :=
  ∀ run ∈ graphicRuns text, (∀ c ∈ run.toList, c.isDigit = true) → run.length ≤ digitLimit

namespace Text

theorem BriefLiterals.not_overlong {text : List Char} (brief : BriefLiterals text) :
    ∀ run ∈ graphicRuns text, ¬ Overlong run :=
  fun run member overlong => Nat.not_lt.mpr (brief run member overlong.digits) overlong.long

theorem BriefLiterals.append {front back : List Char} (closed : Closed front)
    (first : BriefLiterals front) (second : BriefLiterals back) : BriefLiterals (front ++ back) := by
  rw [BriefLiterals, graphicRuns_append closed]
  exact List.forall_mem_append.mpr ⟨first, second⟩

end Text

/-- With literals taken for their decimal values, no run comes to a defect. -/
theorem Interpretation.sound_ofRuns (workspace : Workspace) (runs : List String) (cause : Defect) :
    (ofRuns decimal workspace runs).result ≠ .error (.defect cause) := by
  induction runs generalizing workspace with
  | nil => simp [ofRuns, done]
  | cons run rest ih =>
    rw [ofRuns]
    cases first : (ofRun decimal workspace run).result with
    | error halt =>
      rw [andThen_of_error first, first]
      rcases result_ofRun first with error | ⟨rfl, _⟩
      · rintro ⟨⟩
        contradiction
      · simp
    | ok value =>
      simp only [andThen, first]
      exact ih _

namespace Machine

theorem sound_takeAll (machine : Machine) {text : List Char} (brief : BriefLiterals text)
    (cause : Defect) : (machine.takeAll (graphicRuns text)).result ≠ .error (.defect cause) := by
  have result : (machine.takeAll (graphicRuns text)).result =
      (Interpretation.ofRuns Token.readNumber machine.workspace (graphicRuns text)).result :=
    congrArg (·.result) (takeAll_interpretation machine (graphicRuns text))
  rw [result, Interpretation.ofRuns_readNumber _ begun_of_mem_graphicRuns brief.not_overlong]
  exact Interpretation.sound_ofRuns _ _ cause

/-- Without overlong literals, a line comes to its runs taken one at a time on the whole machine. -/
theorem evaluate_silent_of_brief {machine : Machine} (idle : machine.Idle) {line : String}
    (readable : Readable line.toList) (brief : BriefLiterals line.toList) :
    (machine.evaluate line).silent = machine.takeAll (graphicRuns line.toList) :=
  evaluate_silent idle readable (sound_takeAll machine brief)

/-- Evaluating two lines joined and evaluating them one after the other, the second only if the first
does not halt, end alike, leave the same machine and print the same. -/
theorem evaluate_append {machine : Machine} (idle : machine.Idle) {first second : String}
    (firstReadable : Readable first.toList) (secondReadable : Readable second.toList)
    (firstBrief : BriefLiterals first.toList) (secondBrief : BriefLiterals second.toList) :
    let parted := (machine.evaluate first).andThen fun _ next => next.evaluate second
    (machine.evaluate (first ++ second)).result = parted.result ∧
      (machine.evaluate (first ++ second)).machine = parted.machine ∧
      (machine.evaluate (first ++ second)).trace.output = parted.trace.output := by
  intro parted
  have readable : Readable (first ++ second).toList := by
    rw [String.toList_append]
    exact firstReadable.append secondReadable
  have brief : BriefLiterals (first ++ second).toList := by
    rw [String.toList_append]
    exact firstBrief.append firstReadable.closed secondBrief
  have front := evaluate_silent_of_brief idle firstReadable firstBrief
  have same : (machine.evaluate (first ++ second)).silent = parted.silent := by
    rw [evaluate_silent_of_brief idle readable brief, String.toList_append,
      graphicRuns_append firstReadable.closed, takeAll_append, Run.silent_andThen, ← front]
    refine Run.andThen_congr fun _ success => ?_
    have left : (machine.evaluate first).silent.machine.Idle := by
      rw [front] at success ⊢
      exact idle.takeAll success
    exact (evaluate_silent_of_brief left secondReadable secondBrief).symm
  exact Run.agree_of_silent same

/-- The first line ends in the numbers that the word at the start of the second fails on. -/
theorem evaluate_append_halting :
    let machine := empty.define "TRY" [.dup, .binary .div, .drop]
    let parted := (machine.evaluate "7 0 ").andThen fun _ next => next.evaluate "TRY 5\n"
    machine.Idle ∧ Readable "7 0 ".toList ∧ Readable "TRY 5\n".toList ∧
      BriefLiterals "7 0 ".toList ∧ BriefLiterals "TRY 5\n".toList ∧
      (machine.evaluate ("7 0 " ++ "TRY 5\n")).result = parted.result ∧
      (machine.evaluate ("7 0 " ++ "TRY 5\n")).machine = parted.machine ∧
      (machine.evaluate ("7 0 " ++ "TRY 5\n")).trace.output = parted.trace.output ∧
      parted.result = .error (.ofExecution .divisionByZero) ∧
      parted.machine.operations = [.drop] := by
  intro machine parted
  have idle : machine.Idle := ⟨rfl, rfl⟩
  have firstReadable : Readable "7 0 ".toList := (ScanError.ofLine?_eq_none_iff _).mp (by decide)
  have secondReadable : Readable "TRY 5\n".toList := (ScanError.ofLine?_eq_none_iff _).mp (by decide)
  have firstShort : ∀ run ∈ graphicRuns "7 0 ".toList, run.length ≤ digitLimit := by decide
  have secondShort : ∀ run ∈ graphicRuns "TRY 5\n".toList, run.length ≤ digitLimit := by decide
  have firstBrief : BriefLiterals "7 0 ".toList := fun run member _ => firstShort run member
  have secondBrief : BriefLiterals "TRY 5\n".toList := fun run member _ => secondShort run member
  obtain ⟨result, left, output⟩ :=
    evaluate_append idle firstReadable secondReadable firstBrief secondBrief
  exact ⟨idle, firstReadable, secondReadable, firstBrief, secondBrief, result, left, output,
    by decide +kernel, by decide +kernel⟩

end Machine

end LineForth
