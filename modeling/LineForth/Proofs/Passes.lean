import LineForth.Machine.Evaluation
import LineForth.Proofs.Stepwise

/-! # Passes over a line

Evaluation goes by what is left of a line. Here it goes by positions: a pass reads one batch from a
position on, resolves and runs it, and answers the position behind it, and passes are made for as long as
that lies before the end of the line (`Machine.Passes`). Evaluation is what the passes from the first
position on come to, and every pass but the last takes a run off the line that is no number
(`Machine.evaluate_passes`), so there are no more passes than those runs and one.
-/

namespace LineForth

open Text

/-- The runs of graphic characters that are not made of digits alone. -/
def Text.wordRuns (text : List Char) : List String :=
  (graphicRuns text).filter (!·.toList.all Char.isDigit)

namespace Batch

variable {dictionary : Dictionary} {text : List Char} {tokens : List Token} {count : Nat}

/-- A batch that does not go to the end of its text takes one run off it that is no number. -/
theorem Takes.length_wordRuns (takes : Takes dictionary text tokens count) :
    text.drop count = [] ∨ (wordRuns text).length = (wordRuns (text.drop count)).length + 1 := by
  have parted := takes.graphicRuns_eq
  cases takes with
  | toEnd => exact .inl List.drop_length
  | @toWord before after run delimiter split closed begun graphic ends earlier word =>
    have numbers : (graphicRuns before).filter (!·.toList.all Char.isDigit) = [] := by
      refine List.filter_eq_nil_iff.mpr fun number member => ?_
      simpa using (@Token.kind_ofText dictionary number).mp (earlier number member)
    have taken : [run].filter (!·.toList.all Char.isDigit) = [run] := by
      refine List.filter_cons_of_pos ?_
      simpa using mt (@Token.kind_ofText dictionary run).mpr word
    right
    rw [wordRuns, parted]
    simp only [List.map_map, Function.comp_def, Token.ofText, List.map_id', List.filter_append, numbers,
      taken, List.nil_append, List.length_append, List.length_singleton]
    exact Nat.add_comm ..

end Batch

namespace Machine

/-- What a round does with the tokens that it has read. -/
def workOff (read : Machine) : Run Unit :=
  read.resolve
    |>.thenRecord (fun resolved => .batchResolved resolved.stack resolved.operations)
    |>.andThen (fun _ resolved => resolved.execute)
    |>.thenRecord (fun executed => .batchRun executed.stack executed.applied)

/-- One pass over a line: a batch is read from a position on, resolved and run. The value is the position
where the reading stopped. -/
def pass (machine : Machine) (line : String) (position : Int) : Run Int :=
  machine.scan line position
    |>.thenRecord (fun read => .batchRead read.tokens)
    |>.andThen fun stop read => read.workOff.andThen fun _ next => .done stop next

/-- Passes over a line, each from where the one before it stopped, until nothing is left of the line or
one of them halts. They are counted. -/
inductive Passes (line : String) : Machine → Int → Nat → Run Unit → Prop
  | finished {machine : Machine} {position : Int} :
      (line.length : Int) ≤ position → Passes line machine position 0 (.done () machine)
  | halted {machine next : Machine} {position : Int} {cause : Halt} {trace : Trace} :
      position < line.length → machine.pass line position = ⟨.error cause, next, trace⟩ →
      Passes line machine position 1 ⟨.error cause, next, trace⟩
  | resumed {machine next : Machine} {position stop : Int} {count : Nat} {trace : Trace} {run : Run Unit} :
      position < line.length → machine.pass line position = ⟨.ok stop, next, trace⟩ →
      Passes line next stop count run → Passes line machine position (count + 1) (run.after trace)

/-- There is one way for the passes to go. -/
theorem Passes.unique {line : String} {machine : Machine} {position : Int} {count other : Nat}
    {first second : Run Unit} (left : Passes line machine position count first)
    (right : Passes line machine position other second) : other = count ∧ second = first := by
  induction left generalizing other second with
  | finished beyond =>
    cases right with
    | finished => exact ⟨rfl, rfl⟩
    | halted before | resumed before => omega
  | halted before stopped =>
    cases right with
    | finished beyond => omega
    | halted _ same =>
      rw [stopped] at same
      cases same
      exact ⟨rfl, rfl⟩
    | resumed _ same =>
      rw [stopped] at same
      cases same
  | resumed before passed _ ih =>
    cases right with
    | finished beyond => omega
    | halted _ same =>
      rw [passed] at same
      cases same
    | resumed _ same rest =>
      rw [passed] at same
      cases same
      obtain ⟨rfl, rfl⟩ := ih rest
      exact ⟨rfl, rfl⟩

theorem round_eq (machine : Machine) (batch : Batch) :
    machine.round batch =
      ((machine.takeIn batch).thenRecord fun read => .batchRead read.tokens).andThen fun _ read =>
        read.workOff := by
  simp only [round, workOff, Run.thenRecord, Run.andThen_assoc]

/-- A pass from inside a line that passes the checks is a round on the batch that comes next, and goes to
the position behind what the batch takes. -/
theorem pass_of_readable (machine : Machine) {line : String} (readable : Readable line.toList)
    {start : Nat} (inside : start ≤ line.length) {batch : Batch}
    (next : batch = Batch.cut machine.dictionary (line.toList.drop start)) :
    ∃ count, Batch.Takes machine.dictionary (line.toList.drop start) batch.tokens count ∧
      batch.rest = line.toList.drop (start + count) ∧ start + count ≤ line.length ∧
      machine.pass line start = (machine.round batch).andThen fun _ later =>
        .done ((start + count : Nat) : Int) later := by
  subst next
  obtain ⟨count, takes, left⟩ := Batch.takes_cut machine.dictionary (readable.closed.drop start)
  rw [List.drop_drop] at left
  have bound := takes.count_le
  rw [List.length_drop, String.length_toList] at bound
  refine ⟨count, takes, left, by omega, ?_⟩
  have opened : window line.toList start = .ok (line.toList.drop start) := by
    rw [window, if_pos (Int.natCast_nonneg start), Int.toNat_natCast]
  have stop : (line.length - (Batch.cut machine.dictionary (line.toList.drop start)).rest.length : Int) =
      (start + count : Nat) := by
    rw [left, List.length_drop, String.length_toList]
    omega
  rw [pass, scan_of_window machine readable opened, stop, round_eq, Run.andThen_assoc]
  rfl

/-- The rounds on what stands behind a position are the passes from there. -/
theorem rounds_passes {line : String} (readable : Readable line.toList) (machine : Machine)
    {start : Nat} (inside : start ≤ line.length) {text : List Char} (left : line.toList.drop start = text) :
    ∃ count, Passes line machine start count (machine.rounds text) ∧
      count ≤ (wordRuns text).length + 1 ∧ (text = [] → count = 0) := by
  -- Each round goes to a later position, and the runs of its batch are none of those behind it.
  induction machine, text using rounds.induct generalizing start
  case case1 machine =>
    have reached : line.length ≤ start := by simpa [String.length_toList] using left
    rw [rounds]
    exact ⟨0, .finished (by omega), Nat.zero_le _, fun _ => rfl⟩
  case case2 machine c rest batch ih =>
    have before : (start : Int) < line.length := by
      have some := congrArg List.length left
      rw [List.length_drop, String.length_toList, List.length_cons] at some
      omega
    obtain ⟨taken, takes, behind, further, passed⟩ :=
      @pass_of_readable machine line readable start inside batch (by rw [left])
    have unfolded : machine.rounds (c :: rest) =
        (machine.round batch).andThen fun _ next => next.rounds batch.rest := by rw [rounds]
    rw [unfolded]
    rcases outcome : machine.round batch with ⟨result, next, trace⟩
    rw [outcome] at passed
    cases result with
    | error cause => exact ⟨1, .halted before passed, by omega, nofun⟩
    | ok value =>
      simp only [Run.andThen, Run.done, Run.after, List.append_nil] at passed
      obtain ⟨count, passes, few, none⟩ := @ih next (start + taken) further behind.symm
      refine ⟨count + 1, .resumed before passed passes, ?_, nofun⟩
      rw [← List.drop_drop, left] at behind
      rcases takes.length_wordRuns with finished | fewer
      · rw [left, ← behind] at finished
        rw [none finished]
        omega
      · rw [left, ← behind] at fewer
        omega

/-- Evaluation is what passes from the first position on come to. There are no more of them than runs
that are no numbers, and one. -/
theorem evaluate_passes (machine : Machine) (line : String) :
    ∃ count, Passes line machine 0 count (machine.evaluate line) ∧
      count ≤ (wordRuns line.toList).length + 1 := by
  cases refused : ScanError.ofLine? line.toList with
  | some cause =>
    have some : (0 : Int) < line.length := by
      have begun : line.toList ≠ [] := by
        rintro empty
        rw [empty] at refused
        contradiction
      rw [← String.length_toList]
      exact Int.natCast_pos.mpr (List.length_pos_iff.mpr begun)
    refine ⟨1, ?_, by omega⟩
    rw [evaluate, refused]
    refine .halted some ?_
    rw [pass, scan, refused]
    rfl
  | none =>
    have readable := (ScanError.ofLine?_eq_none_iff line.toList).mp refused
    obtain ⟨count, passes, few, _⟩ := rounds_passes readable machine (Nat.zero_le _) (List.drop_zero)
    refine ⟨count, ?_, few⟩
    rw [evaluate, refused]
    exact passes

end Machine

end LineForth
