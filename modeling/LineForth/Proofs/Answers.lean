import LineForth.Proofs.CellKind
import LineForth.Proofs.Pending
import LineForth.Proofs.ShownStack

/-! # The answer to a line is one plain line

A message quotes nothing of the user's but a run of graphic characters (`LanguageError.OfRuns`), and a stack
of numbers is shown in digits, signs and blanks. So whatever characters a line has, control characters and
escapes among them, its answer stays on its line, and it tells an error from a success
(`Machine.runLine_answer`). Since a line is run with its terminator, the terminator is never missing.
-/

namespace LineForth

open Number Text

namespace Text

/-- The blank and the visible characters of ASCII. -/
def isPlain (c : Char) : Bool := ' ' ≤ c && c ≤ '~'

/-- Text that stays on its line and shows each of its characters. -/
def Plain (text : String) : Prop := ∀ c ∈ text.toList, isPlain c = true

instance (text : String) : Decidable (Plain text) :=
  decidable_of_iff (text.toList.all isPlain = true) List.all_eq_true

theorem isPlain_of_isGraphic {c : Char} (graphic : isGraphic c = true) : isPlain c = true := by
  simp only [isGraphic, isPlain, Bool.and_eq_true, decide_eq_true_eq] at graphic ⊢
  exact ⟨Char.le_trans (by decide) graphic.1, graphic.2⟩

theorem plain_of_graphic {text : String} (graphic : ∀ c ∈ text.toList, isGraphic c = true) : Plain text :=
  fun c member => isPlain_of_isGraphic (graphic c member)

theorem Plain.append {first second : String} (plain : Plain first) (later : Plain second) :
    Plain (first ++ second) := by
  rw [Plain, String.toList_append]
  exact List.forall_mem_append.mpr ⟨plain, later⟩

theorem head?_append {first : String} (begun : first.toList ≠ []) (rest : String) :
    (first ++ rest).toList.head? = first.toList.head? := by
  rw [String.toList_append, List.head?_append_of_ne_nil _ begun]

theorem plain_intercalate {words : List String} (plain : ∀ word ∈ words, Plain word) :
    Plain (" ".intercalate words) := by
  induction words with
  | nil => exact List.forall_mem_nil _
  | cons word rest ih =>
    obtain ⟨first, later⟩ := List.forall_mem_cons.mp plain
    by_cases more : rest = []
    · subst more
      rwa [String.intercalate_singleton]
    · rw [Plain, toList_intercalate_cons word more]
      exact List.forall_mem_append.mpr ⟨first, List.forall_mem_cons.mpr ⟨by decide, ih later⟩⟩

end Text

/-- The errors that a text of these runs can come to, once it is read. -/
inductive LanguageError.OfRuns (runs : List String) : LanguageError → Prop
  | undefinedWord {run : String} : run ∈ runs → OfRuns runs (.parse (.undefinedWord run))
  | numberOutOfRange {run : String} : run ∈ runs → OfRuns runs (.parse (.numberOutOfRange run))
  | execution (cause : ExecutionError) : OfRuns runs (.execution cause)

namespace LanguageError

variable {runs : List String} {cause : LanguageError}

theorem OfRuns.plain_message (reported : cause.OfRuns runs)
    (graphic : ∀ run ∈ runs, ∀ c ∈ run.toList, isGraphic c = true) : Plain cause.message := by
  cases reported with
  | undefinedWord member =>
    exact .append (by decide : Plain "undefined word: ") (plain_of_graphic (graphic _ member))
  | numberOutOfRange member =>
    exact .append (by decide : Plain "number out of range: ") (plain_of_graphic (graphic _ member))
  | execution cause => cases cause <;> decide

/-- No message of these is that of a missing terminator, whatever the run that it quotes. -/
theorem OfRuns.message_ne (reported : cause.OfRuns runs) :
    cause.message ≠ ScanError.message .missingTrailingWhitespace := by
  intro same
  have first : cause.message.toList.head? = some 'm' := by
    rw [same]
    rfl
  cases reported with
  | @undefinedWord run _ =>
    change ("undefined word: " ++ run).toList.head? = _ at first
    rw [head?_append (by decide)] at first
    exact absurd first (by decide)
  | @numberOutOfRange run _ =>
    change ("number out of range: " ++ run).toList.head? = _ at first
    rw [head?_append (by decide)] at first
    exact absurd first (by decide)
  | execution cause =>
    cases cause <;> exact absurd first (by decide)

end LanguageError

namespace Stack

/-- What a stack of numbers is answered with, the values given from the bottom up. -/
def report (values : List Int) : String :=
  if values = [] then "ok" else "ok: " ++ " ".intercalate (values.map toString)

theorem answer_ofNumbers (values : List Int) : (ofNumbers values).answer = report values ++ "\n" := by
  rw [answer, contents_ofNumbers, report]
  cases values <;> simp [ofNumbers]

theorem plain_report (values : List Int) : Plain (report values) := by
  unfold report
  split
  · decide
  · exact .append (by decide : Plain "ok: ") (plain_intercalate fun word member =>
      plain_of_graphic (graphic_map_toString values word member).2)

/-- What a success is answered with is no message of an error. -/
theorem report_ne_error (values : List Int) (message : String) : report values ≠ "error: " ++ message := by
  intro same
  have first := congrArg (fun text : String => text.toList.head?) same
  simp only [head?_append (show "error: ".toList ≠ [] by decide)] at first
  unfold report at first
  split at first
  · exact absurd first (by decide)
  · rw [head?_append (by decide)] at first
    exact absurd first (by decide)

end Stack

namespace Machine

variable {machine : Machine}

/-- A run that stops at an error of the language is quoted in it, unless an operation fails. -/
theorem take_error {runs : List String} {run : String} (member : run ∈ runs) (begun : run.toList ≠ [])
    {cause : LanguageError} (halted : (machine.take run).result = .error (.error cause)) :
    cause.OfRuns runs := by
  cases digits : run.toList.all Char.isDigit with
  | true =>
    rw [take_digits machine digits] at halted
    cases read : Token.readNumber run with
    | ok value =>
      rw [read] at halted
      contradiction
    | error stop =>
      rw [read] at halted
      cases halted
      rcases Token.readNumber_error begun (List.all_eq_true.mp digits) read with range | ⟨_, defect⟩
      · cases range
        exact .numberOutOfRange member
      · contradiction
  | false =>
    cases entry : machine.dictionary[run]? with
    | none =>
      rw [take_undefined machine digits entry] at halted
      cases halted
      exact .undefinedWord member
    | some operations =>
      rw [take_word machine digits entry] at halted
      obtain ⟨_, operation, _, reached, _, _, stops, _⟩ := executeAll_halted halted
      cases effect : operation.apply reached.stack <;> rw [effect] at stops <;> cases stops
      exact .execution _

/-- A line is refused for a character beyond ASCII, or comes to an error of its runs. -/
theorem evaluate_error (idle : machine.Idle) {line : String} {cause : LanguageError}
    (halted : (machine.evaluate (line ++ "\n")).result = .error (.error cause)) :
    cause = .scan .nonAscii (some (line ++ "\n")) ∨ cause.OfRuns (graphicRuns line.toList) := by
  by_cases ascii : ∀ c ∈ line.toList, isAscii c = true
  · have whole := evaluate_bare idle (readable_terminated ascii)
    rw [graphicRuns_terminated] at whole
    have stopped : (machine.takeAll (graphicRuns line.toList)).result = .error (.error cause) := by
      rw [← whole]
      exact halted
    obtain ⟨before, run, behind, found, split, _, _, _, stops, _⟩ := takeAll_halted idle stopped
    have member : run ∈ graphicRuns line.toList := by simp [split]
    exact .inr (take_error member (begun_of_mem_graphicRuns run member) stops)
  · rw [evaluate_beyond_ascii machine ascii] at halted
    cases halted
    exact .inl rfl

theorem message_of_evaluate_error (idle : machine.Idle) {line : String} {cause : LanguageError}
    (halted : (machine.evaluate (line ++ "\n")).result = .error (.error cause)) :
    Plain cause.message ∧ cause.message ≠ ScanError.message .missingTrailingWhitespace := by
  rcases evaluate_error idle halted with rfl | reported
  · refine ⟨?_, ?_⟩
    · exact (by decide : Plain (ScanError.message .nonAscii))
    · exact (by decide : ScanError.message .nonAscii ≠ ScanError.message .missingTrailingWhitespace)
  · exact ⟨reported.plain_message fun _ member => (graphic_of_mem_graphicRuns member).2, reported.message_ne⟩

/-- Evaluating a line prints nothing, unless it takes leave. -/
theorem evaluate_output (idle : machine.Idle) {line : String}
    (staying : (machine.evaluate (line ++ "\n")).result ≠ .error .bye) :
    (machine.evaluate (line ++ "\n")).trace.output = "" := by
  by_cases ascii : ∀ c ∈ line.toList, isAscii c = true
  · have quiet := Interpretation.quiet_ofRuns Token.readNumber machine.workspace (graphicRuns line.toList)
    rw [← evaluate_terminated idle ascii] at quiet
    exact quiet staying
  · rw [evaluate_beyond_ascii machine ascii]
    rfl

/-- A line that goes well prints the answer that shows the stack it leaves. -/
theorem runLine_output_of_ok (idle : machine.Idle) {line : String}
    (success : (machine.evaluate (line ++ "\n")).result = .ok ()) :
    (machine.runLine line).trace.output = (machine.runLine line).machine.stack.answer := by
  have silent := evaluate_output idle (by rw [success]; rintro ⟨⟩)
  have behind : (machine.runLine line).trace.output = (machine.evaluate (line ++ "\n")).trace.output ++
      (machine.evaluate (line ++ "\n")).machine.stack.answer := by
    simp [runLine, Run.answered, Run.closed, success, closingRecords, Trace.output, Event.output]
  rw [behind, silent, String.empty_append, runLine, Run.machine_closed, Run.machine_answered]
  rfl

/-- A line that breaks a rule of the language prints the answer with the message of its error. -/
theorem runLine_output_of_error (idle : machine.Idle) {line : String} {cause : LanguageError}
    (halted : (machine.evaluate (line ++ "\n")).result = .error (.error cause)) :
    (machine.runLine line).trace.output = cause.answer := by
  have silent := evaluate_output idle (by rw [halted]; rintro ⟨⟩)
  rw [output_runLine_of_error halted, silent, String.empty_append]

/-- A line that is run, and does not halt, prints one line of plain text: what is shown of the stack it
leaves if it went well, and the message of its error if not. So the text tells which of the two it is, and
a missing terminator is not reported of any line. -/
theorem runLine_answer (idle : machine.Idle) (numeric : machine.stack.Numeric) (line : String) :
    (∀ flag, (machine.runLine line).result = .ok flag → ∃ text values,
      (machine.runLine line).trace.output = text ++ "\n" ∧ Plain text ∧
      (machine.runLine line).machine.stack = .ofNumbers values ∧
      (flag = true ↔ text = Stack.report values) ∧
      (flag = false ↔ ∃ cause, (machine.evaluate (line ++ "\n")).result = .error (.error cause) ∧
        text = "error: " ++ cause.message) ∧
      text ≠ "error: " ++ ScanError.message .missingTrailingWhitespace) ∧
    ∀ kept, (machine.evaluate (line ++ "\n")).result ≠
      .error (.error (.scan .missingTrailingWhitespace kept)) := by
  refine ⟨fun flag returned => ?_, fun kept halted => ?_⟩
  · obtain ⟨values, shown⟩ := (Conduct.numeric_kept.runLine numeric line).machine.exists_ofNumbers
    have result := result_runLine machine line
    rw [returned] at result
    cases outcome : (machine.evaluate (line ++ "\n")).result with
    | ok value =>
      rw [outcome] at result
      cases result
      have output := runLine_output_of_ok idle outcome
      rw [shown, Stack.answer_ofNumbers] at output
      exact ⟨Stack.report values, values, output, Stack.plain_report values, shown, iff_of_true rfl rfl,
        iff_of_false (by decide) (by rintro ⟨_, ⟨⟩, _⟩), Stack.report_ne_error values _⟩
    | error stop =>
      rw [outcome] at result
      cases stop with
      | error cause =>
        cases result
        obtain ⟨plain, other⟩ := message_of_evaluate_error idle outcome
        exact ⟨"error: " ++ cause.message, values, runLine_output_of_error idle outcome,
          .append (by decide) plain, shown,
          iff_of_false (by decide) fun same => Stack.report_ne_error values _ same.symm,
          iff_of_true rfl ⟨cause, rfl, rfl⟩, fun same => other ((String.append_right_inj _).mp same)⟩
      | defect => contradiction
      | bye => contradiction
  · rcases evaluate_error idle halted with refused | reported
    · cases refused
    · cases reported

/-- An escape sequence in a line does not reach its answer whole, as the escape ends a run. -/
theorem runLine_answer_escaped :
    let machine := empty.defineCore.push [.number (-3)]
    let wrong := "DUP \x1b[31mRED\x07 9"
    machine.Idle ∧ machine.stack.Numeric ∧
      (machine.runLine "DUP +").result = .ok true ∧
      (∃ values, (machine.runLine "DUP +").trace.output = Stack.report values ++ "\n" ∧
        (machine.runLine "DUP +").machine.stack = .ofNumbers values) ∧
      (machine.runLine wrong).result = .ok false ∧
      (machine.runLine wrong).trace.output = "error: undefined word: [31mRED\n" ∧
      ∃ text, (machine.runLine wrong).trace.output = text ++ "\n" ∧ Plain text ∧
        ∃ cause, (machine.evaluate (wrong ++ "\n")).result = .error (.error cause) ∧
          text = "error: " ++ cause.message := by
  intro machine wrong
  have idle : machine.Idle := ⟨rfl, rfl⟩
  have numeric : machine.stack.Numeric := List.forall_mem_singleton.mpr ⟨-3, rfl⟩
  have went : (machine.runLine "DUP +").result = .ok true := by decide +kernel
  have failed : (machine.runLine wrong).result = .ok false := by decide +kernel
  obtain ⟨good, values, printed, _, left, success, _⟩ := (runLine_answer idle numeric _).1 _ went
  obtain ⟨text, _, output, plain, _, _, error, _⟩ := (runLine_answer idle numeric _).1 _ failed
  rw [success.mp rfl] at printed
  exact ⟨idle, numeric, went, ⟨values, printed, left⟩, failed, by decide +kernel, text, output, plain,
    error.mp rfl⟩

end Machine

end LineForth
