import LineForth.Proofs.CellRange
import LineForth.Proofs.Evaluation

/-! # Which lines a dialogue outlives

An answered line is behind the dialogue, whatever became of it, and leave is taken only at a word
that asks for it. The one way for a line to end the dialogue otherwise is that its runs come to an
overlong literal (`Machine.MeetsOverlong`): its many leading zeros make it too long to be read, which
is no error of the language.
-/

namespace LineForth

open Number Text Literal

namespace Text

theorem isAscii_of_isDigit {literal : String} (digits : ∀ c ∈ literal.toList, c.isDigit = true) :
    ∀ c ∈ literal.toList, isAscii c = true :=
  fun c member => isAscii_of_isGraphic (isGraphic_of_isDigit (digits c member))

end Text

/-- No other operation takes leave. -/
theorem Operation.eq_bye_of_apply {operation : Operation} {stack : Stack}
    (leave : operation.apply stack = .bye) : operation = .bye := by
  unfold apply applyKeeping at leave
  split at leave <;> try contradiction
  · rfl
  · split at leave <;> contradiction

/-- The operations come to leave-taking, since those before it succeed. -/
def Workspace.TakesLeave (workspace : Workspace) (operations : List Operation) : Prop :=
  ∃ earlier later, operations = earlier ++ .bye :: later ∧
    (Interpretation.ofOperations workspace earlier).result = .ok ()

/-- The runs come to this one, since those before it do not halt. It is taken against the workspace
that they leave, with other runs behind it. -/
def Workspace.Meets (workspace : Workspace) (runs : List String) (run : String) (behind : List String)
    (found : Workspace) : Prop :=
  ∃ before, runs = before ++ run :: behind ∧ (∀ earlier ∈ before, ¬ Overlong earlier) ∧
    (Interpretation.ofRuns decimal workspace before).result = .ok () ∧
    (Interpretation.ofRuns decimal workspace before).workspace = found

namespace Workspace

theorem meets_head (workspace : Workspace) (run : String) (behind : List String) :
    workspace.Meets (run :: behind) run behind workspace :=
  ⟨[], rfl, by simp, rfl, rfl⟩

/-- A run that does not halt does not keep those behind it from being met. -/
theorem Meets.cons {workspace found : Workspace} {run later : String} {rest behind : List String}
    (plain : ¬ Overlong run) (success : (Interpretation.ofRun decimal workspace run).result = .ok ())
    (meets : (Interpretation.ofRun decimal workspace run).workspace.Meets rest later behind found) :
    workspace.Meets (run :: rest) later behind found := by
  obtain ⟨before, rfl, others, reached, left⟩ := meets
  refine ⟨run :: before, rfl, ?_, ?_, ?_⟩
  · simpa [plain] using others
  · simpa only [Interpretation.ofRuns, Interpretation.andThen, success] using reached
  · simpa only [Interpretation.ofRuns, Interpretation.andThen, success] using left

end Workspace

namespace Interpretation

/-- Nothing is printed but on taking leave. -/
def Quiet (interpretation : Interpretation) : Prop :=
  interpretation.result ≠ .error .bye → interpretation.output = ""

theorem Quiet.output_of_ok {interpretation : Interpretation} (quiet : interpretation.Quiet)
    (success : interpretation.result = .ok ()) : interpretation.output = "" :=
  quiet (by rw [success]; rintro ⟨⟩)

theorem Quiet.andThen {first : Interpretation} {next : Workspace → Interpretation} (quiet : first.Quiet)
    (later : ∀ workspace, (next workspace).Quiet) : (first.andThen next).Quiet := by
  obtain ⟨result, workspace, output⟩ := first
  cases result with
  | error cause => exact quiet
  | ok value =>
    intro staying
    have silent : output = "" := quiet.output_of_ok rfl
    simp only [Interpretation.andThen] at staying ⊢
    rw [silent, later workspace staying, String.empty_append]

theorem quiet_ofOperations (workspace : Workspace) (operations : List Operation) :
    (ofOperations workspace operations).Quiet := by
  induction operations generalizing workspace with
  | nil => exact fun _ => rfl
  | cons operation rest ih =>
    refine .andThen ?_ ih
    unfold ofOperation
    cases operation.apply workspace.stack with
    | bye => exact fun staying => absurd rfl staying
    | _ => exact fun _ => rfl

variable (read : String → Except Halt Int)

theorem quiet_ofRun (workspace : Workspace) (run : String) : (ofRun read workspace run).Quiet := by
  unfold ofRun
  split
  · split <;> exact fun _ => rfl
  · split
    · exact quiet_ofOperations workspace _
    · exact fun _ => rfl

theorem quiet_ofRuns (workspace : Workspace) (runs : List String) : (ofRuns read workspace runs).Quiet := by
  induction runs generalizing workspace with
  | nil => exact fun _ => rfl
  | cons run rest ih => exact (quiet_ofRun read workspace run).andThen ih

/-- What runs come to is what they come to from a run on that they meet. -/
theorem ofRuns_of_meets {workspace found : Workspace} {runs behind : List String} {run : String}
    (begun : ∀ run ∈ runs, run.toList ≠ []) (meets : workspace.Meets runs run behind found) :
    ofRuns Token.readNumber workspace runs = ofRuns Token.readNumber found (run :: behind) := by
  obtain ⟨before, rfl, plain, success, rfl⟩ := meets
  have same := ofRuns_readNumber workspace (fun run member => begun run (List.mem_append_left _ member)) plain
  rw [ofRuns_append, same, andThen, success]
  simp only [(quiet_ofRuns _ _ _).output_of_ok success, String.empty_append]

/-- Operations halt at an error of the language or by taking leave. -/
theorem result_ofOperations {workspace : Workspace} {operations : List Operation} {cause : Halt}
    (halted : (ofOperations workspace operations).result = .error cause) :
    cause.isError = true ∨ cause = .bye ∧ workspace.TakesLeave operations := by
  induction operations generalizing workspace with
  | nil => contradiction
  | cons operation rest ih =>
    unfold ofOperations ofOperation at halted
    cases effect : operation.apply workspace.stack with
    | leaves stack =>
      rw [effect] at halted
      simp only [done_andThen] at halted
      rcases ih halted with error | ⟨bye, earlier, later, rfl, reached⟩
      · exact .inl error
      · refine .inr ⟨bye, operation :: earlier, later, rfl, ?_⟩
        simpa only [ofOperations, ofOperation, effect, done_andThen] using reached
    | fails error =>
      rw [effect] at halted
      cases halted
      exact .inl rfl
    | bye =>
      rw [effect] at halted
      cases halted
      exact .inr ⟨rfl, [], rest, by rw [Operation.eq_bye_of_apply effect]; rfl, rfl⟩

/-- A run halts at an error of the language or, if it is a word, by taking leave. -/
theorem result_ofRun {workspace : Workspace} {run : String} {cause : Halt}
    (halted : (ofRun decimal workspace run).result = .error cause) :
    cause.isError = true ∨ cause = .bye ∧ ∃ operations,
      workspace.dictionary[run]? = some operations ∧ workspace.TakesLeave operations := by
  unfold ofRun at halted
  split at halted
  · unfold decimal at halted
    split at halted
    · next read =>
      split at read <;> cases read
      contradiction
    · next error read =>
      split at read <;> cases read
      cases halted
      exact .inl rfl
  · split at halted
    · next operations entry =>
      rcases result_ofOperations halted with error | ⟨bye, leave⟩
      · exact .inl error
      · exact .inr ⟨bye, operations, entry, leave⟩
    · cases halted
      exact .inl rfl

/-- Runs halt at an error of the language, by taking leave at a word, or at an overlong literal. -/
theorem result_ofRuns {workspace : Workspace} {runs : List String} (begun : ∀ run ∈ runs, run.toList ≠ [])
    {cause : Halt} (halted : (ofRuns Token.readNumber workspace runs).result = .error cause) :
    cause.isError = true ∨
      (cause = .bye ∧ ∃ word behind found operations, workspace.Meets runs word behind found ∧
        found.dictionary[word]? = some operations ∧ found.TakesLeave operations) ∨
      ∃ literal behind found, workspace.Meets runs literal behind found ∧ Overlong literal := by
  induction runs generalizing workspace with
  | nil => contradiction
  | cons run rest ih =>
    by_cases overlong : Overlong run
    · exact .inr (.inr ⟨run, rest, workspace, workspace.meets_head run rest, overlong⟩)
    · rw [ofRuns, ofRun_readNumber workspace (begun run (List.mem_cons_self ..)) overlong] at halted
      cases result : (ofRun decimal workspace run).result with
      | error first =>
        rw [andThen_of_error result, result] at halted
        cases halted
        rcases result_ofRun result with error | ⟨bye, operations, entry, leave⟩
        · exact .inl error
        · exact .inr (.inl ⟨bye, run, rest, workspace, operations, workspace.meets_head run rest, entry,
            leave⟩)
      | ok value =>
        rw [andThen, result] at halted
        rcases ih (fun later member => begun later (List.mem_cons_of_mem _ member)) halted with
          error | ⟨bye, word, behind, found, operations, meets, entry, leave⟩ |
          ⟨literal, behind, found, meets, long⟩
        · exact .inl error
        · exact .inr (.inl ⟨bye, word, behind, found, operations, meets.cons overlong result, entry, leave⟩)
        · exact .inr (.inr ⟨literal, behind, found, meets.cons overlong result, long⟩)

end Interpretation

namespace Run

/-- What an answer makes of each way a run can end. -/
theorem result_answered (run : Run Unit) :
    run.answered.result =
      match run.result with
      | .ok _ => .ok true
      | .error cause => if cause.isError then .ok false else .error cause := by
  obtain ⟨result, machine, trace⟩ := run
  rcases result with (_ | _ | _) | _ <;> rfl

end Run

namespace Machine

/-- The line is read, and its runs come to this one. -/
def Meets (machine : Machine) (line : String) (run : String) (behind : List String)
    (found : Workspace) : Prop :=
  (∀ c ∈ line.toList, isAscii c = true) ∧
    machine.workspace.Meets (graphicRuns line.toList) run behind found

theorem Meets.mem_graphicRuns {machine : Machine} {line run : String} {behind : List String}
    {found : Workspace} (meets : machine.Meets line run behind found) : run ∈ graphicRuns line.toList := by
  obtain ⟨_, before, split, _⟩ := meets
  rw [split]
  exact List.mem_append_right _ (List.mem_cons_self ..)

/-- The line comes to an overlong literal. -/
def MeetsOverlong (machine : Machine) (line : String) : Prop :=
  ∃ literal behind found, machine.Meets line literal behind found ∧ Overlong literal

/-- The line comes to a word, and the operations of the word to leave-taking. -/
def TakesLeave (machine : Machine) (line : String) : Prop :=
  ∃ word behind found operations, machine.Meets line word behind found ∧
    found.dictionary[word]? = some operations ∧ found.TakesLeave operations

/-- The line has its answer, and the dialogue is ready for the next. -/
def Answers (machine : Machine) (line : String) : Prop :=
  (∃ flag, (machine.runLine line).result = .ok flag) ∧ (machine.respond line).result = .ok ()

/-- A line that is run is read to its last run, as its terminator is added to it. -/
theorem evaluate_terminated {machine : Machine} (idle : machine.Idle) {line : String}
    (ascii : ∀ c ∈ line.toList, isAscii c = true) :
    (machine.evaluate (line ++ "\n")).interpretation =
      .ofRuns Token.readNumber machine.workspace (graphicRuns line.toList) := by
  rw [evaluate_readNumber idle (readable_terminated ascii), graphicRuns_terminated]

/-- A line with a character beyond ASCII is refused, whatever else is wrong with it. -/
theorem evaluate_beyond_ascii (machine : Machine) {line : String}
    (beyond : ¬ ∀ c ∈ line.toList, isAscii c = true) :
    machine.evaluate (line ++ "\n") = .halt (.ofScan .nonAscii (line ++ "\n")) machine := by
  have refused : (line ++ "\n").toList.all isAscii = false := by
    refine Bool.eq_false_iff.mpr fun all => beyond fun c member => List.all_eq_true.mp all c ?_
    rw [String.toList_append]
    exact List.mem_append_left _ member
  rw [evaluate, ScanError.ofLine?, refused]
  rfl

theorem result_runLine (machine : Machine) (line : String) :
    (machine.runLine line).result =
      match (machine.evaluate (line ++ "\n")).result with
      | .ok _ => .ok true
      | .error cause => if cause.isError then .ok false else .error cause :=
  Run.result_answered _

/-- A line goes on from a run that it comes to. -/
theorem evaluate_of_meets {machine : Machine} (idle : machine.Idle) {line run : String}
    {behind : List String} {found : Workspace} (meets : machine.Meets line run behind found) :
    (machine.evaluate (line ++ "\n")).interpretation =
      .ofRuns Token.readNumber found (run :: behind) := by
  obtain ⟨ascii, reached⟩ := meets
  rw [evaluate_terminated idle ascii, Interpretation.ofRuns_of_meets begun_of_mem_graphicRuns reached]

theorem result_runLine_of_meetsOverlong {machine : Machine} (idle : machine.Idle) {line literal : String}
    {behind : List String} {found : Workspace} (meets : machine.Meets line literal behind found)
    (overlong : Overlong literal) :
    (machine.runLine line).result = .error (.defect (.tooManyDigits literal.length)) := by
  have come := evaluate_of_meets idle meets
  rw [Interpretation.ofRuns, Interpretation.ofRun_of_overlong _ overlong,
    Interpretation.halt_andThen] at come
  have result : (machine.evaluate (line ++ "\n")).result =
      .error (.defect (.tooManyDigits literal.length)) := congrArg (·.result) come
  rw [result_runLine, result]
  rfl

theorem answers_of_result {machine : Machine} {line : String} {flag : Bool}
    (success : (machine.runLine line).result = .ok flag) : machine.Answers line := by
  refine ⟨⟨flag, success⟩, ?_⟩
  unfold respond
  split
  · rfl
  · rw [Run.andThen, success]
    rfl

/-- A line that does not come to an overlong literal is answered or takes leave. -/
theorem answers_or_takesLeave {machine : Machine} (idle : machine.Idle) {line : String}
    (readable : ¬ machine.MeetsOverlong line) :
    machine.Answers line ∨ (machine.runLine line).result = .error .bye ∧ machine.TakesLeave line := by
  have result := result_runLine machine line
  by_cases ascii : ∀ c ∈ line.toList, isAscii c = true
  · cases outcome : (machine.evaluate (line ++ "\n")).result with
    | ok value =>
      rw [outcome] at result
      exact .inl (answers_of_result result)
    | error cause =>
      rw [outcome] at result
      have halted : (Interpretation.ofRuns Token.readNumber machine.workspace
          (graphicRuns line.toList)).result = .error cause := by
        rw [← evaluate_terminated idle ascii]
        exact outcome
      rcases Interpretation.result_ofRuns begun_of_mem_graphicRuns halted with
        error | ⟨rfl, word, behind, found, operations, meets, entry, leave⟩ |
        ⟨literal, behind, found, meets, overlong⟩
      · simp only [error, ↓reduceIte] at result
        exact .inl (answers_of_result result)
      · exact .inr ⟨result, word, behind, found, operations, ⟨ascii, meets⟩, entry, leave⟩
      · exact absurd ⟨literal, behind, found, ⟨ascii, meets⟩, overlong⟩ readable
  · rw [evaluate_beyond_ascii machine ascii] at result
    exact .inl (answers_of_result result)

theorem output_runLine_of_error {machine : Machine} {line : String} {cause : LanguageError}
    (halted : (machine.evaluate (line ++ "\n")).result = .error (.error cause)) :
    (machine.runLine line).trace.output =
      (machine.evaluate (line ++ "\n")).trace.output ++ cause.answer := by
  simp [runLine, Run.answered, Run.closed, halted, closingRecords, Trace.output, Event.output]

theorem answer_numberOutOfRange (literal : String) :
    (LanguageError.parse (.numberOutOfRange literal)).answer =
      "error: number out of range: " ++ literal ++ "\n" := by
  change "error: " ++ ("number out of range: " ++ literal) ++ "\n" = _
  simp only [← String.append_assoc, String.reduceAppend]

/-- A literal that the line comes to, and that is not overlong, is pushed before the line goes on
behind it, or else the line ends in the report that it is out of range. -/
theorem runLine_of_meets_literal {machine : Machine} (idle : machine.Idle) {line literal : String}
    {behind : List String} {found : Workspace} (meets : machine.Meets line literal behind found)
    (digits : ∀ c ∈ literal.toList, c.isDigit = true) (plain : ¬ Overlong literal) :
    ((Nat.ofDigitChars 10 literal.toList 0 : Int) ≤ greatestCell ∧
      (machine.evaluate (line ++ "\n")).interpretation = .ofRuns Token.readNumber
        { found with stack := .number (Nat.ofDigitChars 10 literal.toList 0) :: found.stack } behind) ∨
    (greatestCell < (Nat.ofDigitChars 10 literal.toList 0 : Int) ∧
      (machine.runLine line).result = .ok false ∧
      (machine.runLine line).machine.stack = found.stack ∧
      (machine.runLine line).trace.output = "error: number out of range: " ++ literal ++ "\n") := by
  have come := evaluate_of_meets idle meets
  have begun : literal.toList ≠ [] := begun_of_mem_graphicRuns literal meets.mem_graphicRuns
  rw [Interpretation.ofRuns, Interpretation.ofRun_readNumber _ begun plain] at come
  simp only [Interpretation.ofRun, List.all_eq_true.mpr digits, ↓reduceIte, decimal] at come
  by_cases fits : (Nat.ofDigitChars 10 literal.toList 0 : Int) ≤ greatestCell
  · simp only [if_pos fits, Interpretation.done_andThen] at come
    exact .inl ⟨fits, come⟩
  · simp only [if_neg fits, Interpretation.halt_andThen] at come
    have result : (machine.evaluate (line ++ "\n")).result =
        .error (.error (.parse (.numberOutOfRange literal))) := congrArg (·.result) come
    have silence : (machine.evaluate (line ++ "\n")).trace.output = "" := congrArg (·.output) come
    have stack : (machine.evaluate (line ++ "\n")).machine.stack = found.stack :=
      congrArg (·.workspace.stack) come
    refine .inr ⟨Int.not_le.mp fits, ?_, ?_, ?_⟩
    · rw [result_runLine, result]
      rfl
    · rw [runLine, Run.machine_closed, Run.machine_answered]
      exact stack
    · have answer := output_runLine_of_error result
      rw [silence, String.empty_append] at answer
      rw [answer, answer_numberOutOfRange]

/-- The lines that a dialogue outlives, unless they take leave at a word that asks for it, are those
that do not come to an overlong literal; such a literal is the defect that the others end in. Any
other literal is pushed, or reported if it is out of range. -/
theorem recovers_iff_not_meetsOverlong {machine : Machine} (idle : machine.Idle) (line : String) :
    ((machine.Answers line ∨ (machine.runLine line).result = .error .bye ∧ machine.TakesLeave line) ↔
      ¬ machine.MeetsOverlong line) ∧
    ∀ literal behind found, machine.Meets line literal behind found →
      (∀ c ∈ literal.toList, c.isDigit = true) →
      (Overlong literal ∧
        (machine.runLine line).result = .error (.defect (.tooManyDigits literal.length))) ∨
      ((Nat.ofDigitChars 10 literal.toList 0 : Int) ≤ greatestCell ∧
        (machine.evaluate (line ++ "\n")).interpretation = .ofRuns Token.readNumber
          { found with stack := .number (Nat.ofDigitChars 10 literal.toList 0) :: found.stack } behind) ∨
      (greatestCell < (Nat.ofDigitChars 10 literal.toList 0 : Int) ∧
        (machine.runLine line).result = .ok false ∧
        (machine.runLine line).machine.stack = found.stack ∧
        (machine.runLine line).trace.output = "error: number out of range: " ++ literal ++ "\n") := by
  refine ⟨⟨?_, answers_or_takesLeave idle⟩, ?_⟩
  · rintro recovered ⟨literal, behind, found, meets, overlong⟩
    have halted := result_runLine_of_meetsOverlong idle meets overlong
    rcases recovered with ⟨⟨flag, success⟩, _⟩ | ⟨bye, _⟩
    · rw [halted] at success
      contradiction
    · rw [halted] at bye
      cases bye
  · intro literal behind found meets digits
    by_cases overlong : Overlong literal
    · exact .inl ⟨overlong, result_runLine_of_meetsOverlong idle meets overlong⟩
    · exact .inr (runLine_of_meets_literal idle meets digits overlong)

/-- A line that takes leave, with an error behind the word that it does not come to. -/
theorem recovers_iff_not_meetsOverlong_leaving :
    Idle empty.defineCore ∧ ¬ empty.defineCore.MeetsOverlong "2 DUP * BYE 0 0 /" ∧
      empty.defineCore.TakesLeave "2 DUP * BYE 0 0 /" := by
  have idle : Idle empty.defineCore := ⟨rfl, rfl⟩
  have short : ∀ run ∈ graphicRuns "2 DUP * BYE 0 0 /".toList, run.length ≤ digitLimit := by decide
  have readable : ¬ empty.defineCore.MeetsOverlong "2 DUP * BYE 0 0 /" := by
    rintro ⟨literal, behind, found, meets, overlong⟩
    exact Nat.not_lt.mpr (short literal meets.mem_graphicRuns) overlong.long
  have leaves : (empty.defineCore.runLine "2 DUP * BYE 0 0 /").result = .error .bye := by
    decide +kernel
  refine ⟨idle, readable, ?_⟩
  rcases (recovers_iff_not_meetsOverlong idle "2 DUP * BYE 0 0 /").1.mpr readable with
    ⟨⟨flag, success⟩, _⟩ | ⟨_, leave⟩
  · rw [leaves] at success
    contradiction
  · exact leave

/-- Zeros alone are a number that every cell holds; this many of them end the dialogue. -/
theorem zeros_not_answered :
    Idle empty.defineCore ∧ Stack.Fits empty.defineCore.stack ∧
      (∀ c ∈ (String.ofList (List.replicate 4301 '0')).toList, c.isDigit = true) ∧
      (empty.defineCore.runLine (String.ofList (List.replicate 4301 '0'))).result =
        .error (.defect (.tooManyDigits 4301)) := by
  have idle : Idle empty.defineCore := ⟨rfl, rfl⟩
  generalize zeros : String.ofList (List.replicate 4301 '0') = literal
  have characters : literal.toList = List.replicate 4301 '0' := by rw [← zeros, String.toList_ofList]
  have length : literal.length = 4301 := by rw [← zeros, String.length_ofList, List.length_replicate]
  have digits : ∀ c ∈ literal.toList, c.isDigit = true := by
    intro c member
    rw [characters] at member
    rw [List.eq_of_mem_replicate member]
    decide
  have overlong : Overlong literal := by
    refine ⟨digits, ?_, ?_⟩
    · rw [length]
      decide
    · rw [characters, List.dropWhile_replicate]
      decide
  have meets : empty.defineCore.Meets literal literal [] empty.defineCore.workspace := by
    refine ⟨isAscii_of_isDigit digits, ?_⟩
    rw [graphicRuns_of_isDigit overlong.begun digits]
    exact Workspace.meets_head ..
  have result := result_runLine_of_meetsOverlong idle meets overlong
  rw [length] at result
  exact ⟨idle, Stack.fits_nil, digits, result⟩

end Machine

end LineForth
