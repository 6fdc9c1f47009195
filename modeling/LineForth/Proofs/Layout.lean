import LineForth.Proofs.Agreement

/-! # What stands between the runs

Lines with the same runs of graphic characters are cut into the same batches, wherever their delimiters
stand and however many there are. The one difference is at the end, where more delimiters may ask for a
further round; nothing is queued by then, so that round does nothing. What is queued before the line
belongs to its first round, which every line has that is not empty (`Machine.evaluate_congr_layout`).
-/

namespace LineForth

open Text

/-- Texts with the same runs have the same batch taken off them, and the same runs are left. -/
theorem Batch.cut_congr_runs (dictionary : Dictionary) {first second : List Char}
    (firstClosed : Closed first) (secondClosed : Closed second)
    (same : graphicRuns first = graphicRuns second) :
    (cut dictionary first).tokens = (cut dictionary second).tokens ∧
      graphicRuns (cut dictionary first).rest = graphicRuns (cut dictionary second).rest := by
  obtain ⟨count, takes, left⟩ := takes_cut dictionary firstClosed
  obtain ⟨other, takesOther, leftOther⟩ := takes_cut dictionary secondClosed
  have texts : (cut dictionary first).tokens.map Token.text =
      (cut dictionary second).tokens.map Token.text := by
    rw [takes.texts_eq, takesOther.texts_eq, same]
  constructor
  · rw [← takes.map_ofText, texts, takesOther.map_ofText]
  · have parts := takes.graphicRuns_eq.symm.trans (same.trans takesOther.graphicRuns_eq)
    rw [texts] at parts
    rw [left, leftOther]
    exact List.append_cancel_left parts

namespace Machine

/-- With nothing queued, a text without runs asks for nothing. -/
theorem rounds_silent_of_blank {machine : Machine} (idle : machine.Idle) {text : List Char}
    (closed : Closed text) (blank : graphicRuns text = []) :
    (machine.rounds text).silent = .done () machine := by
  have bare := rounds_bare idle closed
  rw [blank] at bare
  have result : (machine.rounds text).result = .ok () := congrArg (·.result) bare
  have drained : (machine.rounds text).machine.tokens = [] :=
    rounds_drained idle.tokens text (by simp [result])
  rw [Run.silent_eq_bare drained, bare]
  rfl

/-- The first rounds of texts with the same runs are the same but for their records, whatever is queued,
and the texts that they leave have the same runs again. -/
theorem rounds_silent_cons (machine : Machine) {c d : Char} {first second : List Char}
    (firstClosed : Closed (c :: first)) (secondClosed : Closed (d :: second))
    (same : graphicRuns (c :: first) = graphicRuns (d :: second))
    (later : ∀ next : Machine, next.Idle →
      let front := (Batch.cut machine.dictionary (c :: first)).rest
      let back := (Batch.cut machine.dictionary (d :: second)).rest
      Closed front → Closed back → graphicRuns front = graphicRuns back →
        (next.rounds front).silent = (next.rounds back).silent) :
    (machine.rounds (c :: first)).silent = (machine.rounds (d :: second)).silent := by
  obtain ⟨tokens, left⟩ := Batch.cut_congr_runs machine.dictionary firstClosed secondClosed same
  obtain ⟨_, _, front⟩ := Batch.runs_of_cut machine.dictionary firstClosed
  obtain ⟨_, _, back⟩ := Batch.runs_of_cut machine.dictionary secondClosed
  rw [rounds, rounds, Run.silent_andThen, Run.silent_andThen, round_silent, round_silent, tokens]
  exact Run.andThen_congr fun _ success => later _ (settle_idle success) front back left

/-- With nothing queued, the rounds of texts with the same runs come to the same. -/
theorem rounds_silent_congr {machine : Machine} (idle : machine.Idle) {first second : List Char}
    (firstClosed : Closed first) (secondClosed : Closed second)
    (same : graphicRuns first = graphicRuns second) :
    (machine.rounds first).silent = (machine.rounds second).silent := by
  -- Both texts are cut alike until one is at its end; the other has no run left then.
  fun_induction rounds machine first generalizing second with
  | case1 machine => exact (rounds_silent_of_blank idle secondClosed same.symm).symm
  | case2 machine c rest batch ih =>
    rw [← rounds]
    cases second with
    | nil =>
      rw [rounds_silent_of_blank idle firstClosed same]
      exact (rounds_silent_of_blank idle secondClosed rfl).symm
    | cons d others =>
      exact rounds_silent_cons machine firstClosed secondClosed same fun next still => ih next still

/-- Evaluating lines with the same runs comes to the same, whatever delimiters part the runs and
whatever is queued: the lines end alike, at defects as well, leave the same machine and print the same.
They must not be empty, since the empty line leaves even what is queued alone. -/
theorem evaluate_congr_layout (machine : Machine) {first second : String}
    (firstReadable : Readable first.toList) (secondReadable : Readable second.toList)
    (firstBegun : first.toList ≠ []) (secondBegun : second.toList ≠ [])
    (same : graphicRuns first.toList = graphicRuns second.toList) :
    (machine.evaluate first).result = (machine.evaluate second).result ∧
      (machine.evaluate first).machine = (machine.evaluate second).machine ∧
      (machine.evaluate first).trace.output = (machine.evaluate second).trace.output := by
  have firstClosed := firstReadable.closed
  have secondClosed := secondReadable.closed
  obtain ⟨c, front, firstText⟩ := List.exists_cons_of_ne_nil firstBegun
  obtain ⟨d, back, secondText⟩ := List.exists_cons_of_ne_nil secondBegun
  refine Run.agree_of_silent ?_
  rw [evaluate, evaluate, (ScanError.ofLine?_eq_none_iff _).mpr firstReadable,
    (ScanError.ofLine?_eq_none_iff _).mpr secondReadable]
  rw [firstText] at firstClosed same ⊢
  rw [secondText] at secondClosed same ⊢
  exact rounds_silent_cons machine firstClosed secondClosed same fun _ idle => rounds_silent_congr idle

/-- A queued number and a queued operation belong to the first round of both lines, which come to the
same division by zero in their last. -/
theorem evaluate_congr_layout_queued :
    let machine := (empty.defineCore.queueTokens [⟨"7", .number⟩]).queueOperations [.dup]
    let first := "2 * 0 /\n"
    let second := "\t\x002\x1b\x1b* \n0\x7f/\r\n "
    Readable first.toList ∧ Readable second.toList ∧ first.toList ≠ [] ∧ second.toList ≠ [] ∧
      graphicRuns first.toList = graphicRuns second.toList ∧
      (machine.evaluate first).result = (machine.evaluate second).result ∧
      (machine.evaluate first).machine = (machine.evaluate second).machine ∧
      (machine.evaluate first).trace.output = (machine.evaluate second).trace.output ∧
      (machine.evaluate second).result = .error (.ofExecution .divisionByZero) ∧
      (machine.evaluate second).machine.stack = [.number 0, .number 4, .number 7] := by
  intro machine first second
  have firstReadable : Readable first.toList := (ScanError.ofLine?_eq_none_iff _).mp (by decide)
  have secondReadable : Readable second.toList := (ScanError.ofLine?_eq_none_iff _).mp (by decide)
  have firstBegun : first.toList ≠ [] := by decide
  have secondBegun : second.toList ≠ [] := by decide
  have same : graphicRuns first.toList = graphicRuns second.toList := by decide
  obtain ⟨result, left, output⟩ :=
    evaluate_congr_layout machine firstReadable secondReadable firstBegun secondBegun same
  exact ⟨firstReadable, secondReadable, firstBegun, secondBegun, same, result, left, output,
    by decide +kernel, by decide +kernel⟩

end Machine

end LineForth
