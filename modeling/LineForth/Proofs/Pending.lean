import LineForth.Proofs.Recovery
import LineForth.Proofs.Stepwise

/-! # What a line leaves queued

How much of a line's work is still queued at its end depends on how it ends. A line that goes well
leaves nothing, and neither does an error of a word or number; a line that is refused changes
nothing. Only a word that stops among its operations leaves some: those behind the operation that it
stops at (`Workspace.StopsInWord`). `Machine.pending_of_line` says so for every end of an evaluation
that begins with nothing queued. A line of a dialogue leaves nothing in any case.
-/

namespace LineForth

open Text

/-- The halt of a run at an operation of this effect, if the run halts there. -/
def Effect.halt? : Effect → Option Halt
  | leaves _ => none
  | fails cause => some (.ofExecution cause)
  | bye => some .bye

/-- The runs come to a word that stops for this cause: the operations of its entry before a certain
one succeed, and that one does not. The machine is left as they leave it, with the operations behind
that one queued. -/
inductive Workspace.StopsInWord (workspace : Workspace) (runs : List String) (cause : Halt) :
    Machine → Prop
  | intro {before behind : List String} {word : String} {earlier later : List Operation}
      {operation : Operation} {found reached : Workspace} :
      runs = before ++ word :: behind →
      Interpretation.ofRuns Token.readNumber workspace before = .done found →
      word.toList.all Char.isDigit = false →
      workspace.dictionary[word]? = some (earlier ++ operation :: later) →
      Interpretation.ofOperations found earlier = .done reached →
      (operation.apply reached.stack).halt? = some cause →
      StopsInWord workspace runs cause
        ⟨workspace.dictionary, [], later, reached.stack, reached.applied⟩

/-- What an idle machine leaves that evaluates a line of these runs, by how the evaluation ends. -/
def Machine.Leaves (machine : Machine) (runs : List String) (last : Machine) : Except Halt Unit → Prop
  | .ok _ => last.Idle
  | .error (.error (.scan _ _)) => last = machine
  | .error (.error (.parse _)) => last.Idle
  | .error (.error (.execution cause)) =>
      machine.workspace.StopsInWord runs (.ofExecution cause) last
  | .error (.error (.custom _ _ _)) => False
  | .error .bye => machine.workspace.StopsInWord runs .bye last
  | .error (.defect cause) => last.operations = [] ∧ ∃ digits, cause = .tooManyDigits digits

theorem Interpretation.eq_done {interpretation : Interpretation}
    (success : interpretation.result = .ok ()) (silent : interpretation.output = "") :
    interpretation = .done interpretation.workspace := by
  obtain ⟨result, workspace, output⟩ := interpretation
  cases success
  cases silent
  rfl

namespace Machine

/-- Operations that halt have a first one that does not succeed, and those behind it stay queued. -/
theorem executeAll_halted {machine : Machine} {operations : List Operation} {cause : Halt}
    (halted : (machine.executeAll operations).result = .error cause) :
    ∃ earlier operation later reached, operations = earlier ++ operation :: later ∧
      Interpretation.ofOperations machine.workspace earlier = .done reached ∧
      (operation.apply reached.stack).halt? = some cause ∧
      (machine.executeAll operations).machine =
        ⟨machine.dictionary, machine.tokens, later, reached.stack, reached.applied⟩ := by
  induction operations generalizing machine with
  | nil => contradiction
  | cons operation rest ih =>
    rw [executeAll_cons] at halted ⊢
    cases effect : operation.apply machine.stack with
    | leaves stack =>
      rw [effect] at halted
      obtain ⟨earlier, stopped, later, reached, rfl, success, stops, left⟩ := ih halted
      refine ⟨operation :: earlier, stopped, later, reached, rfl, ?_, stops, left⟩
      rw [Interpretation.ofOperations, Interpretation.ofOperation]
      simp only [workspace, effect, Interpretation.done_andThen]
      exact success
    | fails error =>
      rw [effect] at halted
      cases halted
      exact ⟨[], operation, rest, machine.workspace, rfl, rfl, congrArg Effect.halt? effect, rfl⟩
    | bye =>
      rw [effect] at halted
      cases halted
      exact ⟨[], operation, rest, machine.workspace, rfl, rfl, congrArg Effect.halt? effect, rfl⟩

theorem take_dictionary (machine : Machine) (run : String) :
    (machine.take run).machine.dictionary = machine.dictionary := by
  unfold take
  split
  · split <;> rfl
  · split
    · exact (executeAll_frame machine _).1
    · rfl

/-- A run that does not halt is heard of no more than its interpretation. -/
theorem ofRun_of_take {machine : Machine} {run : String} (success : (machine.take run).result = .ok ()) :
    Interpretation.ofRun Token.readNumber machine.workspace run =
      .done (machine.take run).machine.workspace := by
  have same := take_interpretation machine run
  have result : (Interpretation.ofRun Token.readNumber machine.workspace run).result = .ok () :=
    (congrArg (·.result) same).symm.trans success
  have output := (Interpretation.quiet_ofRun _ _ _).output_of_ok result
  rw [← same] at output ⊢
  exact Interpretation.eq_done success output

/-- Runs that halt have a first one that halts, on the machine that those before it leave. -/
theorem takeAll_halted {machine : Machine} (idle : machine.Idle) {runs : List String} {cause : Halt}
    (halted : (machine.takeAll runs).result = .error cause) :
    ∃ before run behind, ∃ found : Machine, runs = before ++ run :: behind ∧
      Interpretation.ofRuns Token.readNumber machine.workspace before = .done found.workspace ∧
      found.Idle ∧ found.dictionary = machine.dictionary ∧
      (found.take run).result = .error cause ∧
      (machine.takeAll runs).machine = (found.take run).machine := by
  induction runs generalizing machine with
  | nil => contradiction
  | cons run rest ih =>
    unfold takeAll at halted ⊢
    cases first : (machine.take run).result with
    | error stop =>
      simp only [Run.andThen, first] at halted ⊢
      cases halted
      exact ⟨[], run, rest, machine, rfl, rfl, idle, rfl, first, rfl⟩
    | ok value =>
      simp only [Run.andThen, first] at halted ⊢
      obtain ⟨before, stopped, behind, found, rfl, success, still, dictionary, stops, left⟩ :=
        ih (idle.take first) halted
      refine ⟨run :: before, stopped, behind, found, rfl, ?_, still,
        dictionary.trans (take_dictionary machine run), stops, left⟩
      rw [Interpretation.ofRuns, ofRun_of_take first, Interpretation.done_andThen]
      exact success

theorem takeAll_leaves {machine : Machine} (idle : machine.Idle) {runs : List String}
    (begun : ∀ run ∈ runs, run.toList ≠ []) :
    machine.Leaves runs (machine.takeAll runs).machine (machine.takeAll runs).result := by
  cases outcome : (machine.takeAll runs).result with
  | ok value => exact idle.takeAll outcome
  | error cause =>
    obtain ⟨before, run, behind, found, split, success, still, dictionary, halted, left⟩ :=
      takeAll_halted idle outcome
    rw [left]
    cases digits : run.toList.all Char.isDigit with
    | true =>
      rw [take_digits found digits] at halted ⊢
      cases read : Token.readNumber run with
      | ok value =>
        rw [read] at halted
        contradiction
      | error refusal =>
        rw [read] at halted
        cases halted
        have member : run ∈ runs := by simp [split]
        rcases Token.readNumber_error (begun run member) (List.all_eq_true.mp digits) read with
          rfl | ⟨_, rfl⟩
        · exact still
        · exact ⟨still.operations, run.length, rfl⟩
    | false =>
      cases entry : found.dictionary[run]? with
      | none =>
        rw [take_undefined found digits entry] at halted ⊢
        cases halted
        exact still
      | some operations =>
        rw [take_word found digits entry] at halted ⊢
        obtain ⟨earlier, operation, later, reached, rfl, reaches, stops, last⟩ :=
          executeAll_halted halted
        have stopped : machine.workspace.StopsInWord runs cause
            (found.executeAll (earlier ++ operation :: later)).machine := by
          rw [last, still.tokens, dictionary]
          rw [dictionary] at entry
          exact .intro split success digits entry reaches stops
        cases effect : operation.apply reached.stack with
        | leaves stack =>
          rw [effect] at stops
          contradiction
        | fails error =>
          rw [effect] at stops
          cases stops
          exact stopped
        | bye =>
          rw [effect] at stops
          cases stops
          exact stopped

theorem evaluate_leaves {machine : Machine} (idle : machine.Idle) (line : String) :
    machine.Leaves (graphicRuns line.toList) (machine.evaluate line).machine
      (machine.evaluate line).result := by
  cases refused : ScanError.ofLine? line.toList with
  | some cause =>
    rw [evaluate, refused]
    rfl
  | none =>
    have readable := (ScanError.ofLine?_eq_none_iff line.toList).mp refused
    have leaves := takeAll_leaves idle (@begun_of_mem_graphicRuns line.toList)
    rw [← evaluate_bare idle readable] at leaves
    by_cases sound : ∀ cause, (machine.evaluate line).result ≠ .error (.defect cause)
    · rw [← Run.silent_eq_bare (evaluate_drained idle line sound)] at leaves
      exact leaves
    · -- A defect leaves the tokens behind it, which are of no concern to what is said of it.
      obtain ⟨cause, defect⟩ := not_forall_not.mp sound
      have result : (machine.evaluate line).bare.result = .error (.defect cause) := defect
      rw [result] at leaves
      rw [defect]
      exact leaves

/-- A line that one reading accepts is accepted by every reading that does not start before it. -/
theorem scan_of_scan {machine : Machine} {line : String} {start stop : Int}
    (accepted : (machine.scan line start).result = .ok stop) (later : Machine) {position : Int}
    (inside : -(line.length : Int) ≤ position) :
    ∃ next, (later.scan line position).result = .ok next := by
  have passed : ScanError.ofLine? line.toList = none := by
    unfold scan at accepted
    split at accepted
    · contradiction
    · assumption
  have opened : ∃ text, window line.toList position = .ok text := by
    unfold window
    rw [String.length_toList]
    split_ifs with behind before
    · exact ⟨_, rfl⟩
    · omega
    · exact ⟨_, rfl⟩
  obtain ⟨text, opened⟩ := opened
  exact ⟨_, by rw [scan, passed, opened]; rfl⟩

/-- What is queued where a line ends. An evaluation that begins with nothing queued leaves nothing
when it goes well and at an error of a word or number, the machine as it was when the line is
refused, and the rest of a word's operations when it stops among them. A line that one of its
readings accepts is accepted by all of them. A line of a dialogue leaves nothing queued, no matter
what was queued before it and how it ends; the dictionary stays, and the count does not fall. -/
theorem pending_of_line (machine : Machine) (line : String) :
    (machine.Idle → machine.Leaves (graphicRuns line.toList) (machine.evaluate line).machine
      (machine.evaluate line).result) ∧
    (∀ start stop, (machine.scan line start).result = .ok stop →
      ∀ later position, -(line.length : Int) ≤ position →
        ∃ next, (Machine.scan later line position).result = .ok next) ∧
    (machine.runLine line).machine.Idle ∧
    (machine.runLine line).machine.dictionary = machine.dictionary ∧
    machine.applied ≤ (machine.runLine line).machine.applied := by
  obtain ⟨dictionary, counted⟩ := evaluate_frame machine (line ++ "\n")
  refine ⟨fun idle => evaluate_leaves idle line,
    fun start stop accepted later position inside => scan_of_scan accepted later inside, ?_, ?_, ?_⟩
  · rw [runLine, Run.machine_closed]
    exact ⟨rfl, rfl⟩
  · rw [runLine, Run.machine_closed, Run.machine_answered]
    exact dictionary
  · rw [runLine, Run.machine_closed, Run.machine_answered]
    exact counted

/-- A word that takes leave at the second of its four operations: the other two stay queued. -/
theorem pending_of_line_leaving :
    let machine := empty.defineCore.define "QUIT" [.dup, .bye, .drop, .nop]
    machine.Idle ∧
      machine.workspace.StopsInWord (graphicRuns "4 5 + QUIT 0 0 /\n".toList) .bye
        (machine.evaluate "4 5 + QUIT 0 0 /\n").machine ∧
      (machine.evaluate "4 5 + QUIT 0 0 /\n").machine.operations = [.drop, .nop] := by
  intro machine
  have idle : machine.Idle := ⟨rfl, rfl⟩
  have result : (machine.evaluate "4 5 + QUIT 0 0 /\n").result = .error .bye := by decide +kernel
  have leaves := (pending_of_line machine "4 5 + QUIT 0 0 /\n").1 idle
  rw [result] at leaves
  exact ⟨idle, leaves, by decide +kernel⟩

end Machine

end LineForth
