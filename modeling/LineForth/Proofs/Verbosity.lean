import LineForth.Proofs.CoreWords
import LineForth.Proofs.Silence
import LineForth.Proofs.Text.Lines

/-! # The program and its records

The program shows its banner and holds a dialogue with the core words on the lines of its input. Asked to
be verbose, it does nothing else: it ends in the same way, and what it prints is what it prints otherwise
with the messages of its records put in between, in the order in which they are made
(`Program.run_verbose`).
-/

namespace LineForth

/-- Put in between the parts of the plain text, in this order, the insertions make it the whole text. -/
inductive Text.Inserted : List String → String → String → Prop
  | none (plain : String) : Inserted [] plain plain
  | behind (front : String) (insertion : String) {later : List String} {plain whole : String} :
      Inserted later plain whole →
      Inserted (insertion :: later) (front ++ plain) (front ++ insertion ++ whole)

namespace Text.Inserted

variable {insertions : List String} {plain whole : String}

theorem prepend (inserted : Inserted insertions plain whole) (front : String) :
    Inserted insertions (front ++ plain) (front ++ whole) := by
  cases inserted with
  | none => exact .none _
  | behind middle insertion later =>
    simp only [← String.append_assoc]
    exact .behind (front ++ middle) insertion later

theorem insert (inserted : Inserted insertions plain whole) (insertion : String) :
    Inserted (insertion :: insertions) plain (insertion ++ whole) := by
  simpa only [String.empty_append] using inserted.behind "" insertion

end Text.Inserted

/-- The line that a reader of the records sees for each of them. -/
def Trace.messages (trace : Trace) : List String := trace.records.map fun record => record.message ++ "\n"

/-- What a reader of the records sees is what is printed, with their messages inserted. -/
theorem Trace.inserted_messages (trace : Trace) :
    Text.Inserted trace.messages trace.output trace.verboseOutput := by
  induction trace with
  | nil => exact .none ""
  | cons event rest ih =>
    simp only [output, verboseOutput, List.map_cons, String.join_cons]
    cases event with
    | printed text => exact ih.prepend text
    | recorded record =>
      rw [Event.output, String.empty_append]
      exact ih.insert (record.message ++ "\n")

namespace Program

/-- The dialogue of the program is one on a new machine with the core words, behind the banner and the
record of the core words. -/
theorem follow_opening (entries : List Entry) :
    let dialogue := Dialogue.hold Machine.empty.defineCore entries
    Dialogue.follow opening entries =
      ⟨dialogue.run.after [.printed banner, .recorded (.defined Dictionary.coreWords.length)],
        dialogue.unread⟩ :=
  rfl

/-- The record of the core words is read behind the banner. -/
theorem start_eq (verbose : Bool) (input : String) :
    let dialogue := Dialogue.hold Machine.empty.defineCore (entries input)
    let loaded := (Record.defined Dictionary.coreWords.length).message ++ "\n"
    start { verbose } input =
      ⟨if verbose then banner ++ loaded ++ dialogue.run.trace.verboseOutput
        else banner ++ dialogue.run.trace.output, "", endingOf dialogue.run⟩ := by
  intro dialogue loaded
  simp only [start, follow_opening, shown, Bool.false_eq_true, if_false]
  refine congrArg (Outcome.mk · "" (endingOf dialogue.run)) ?_
  split
  · simp only [Run.after, Trace.verboseOutput, List.cons_append, List.nil_append, List.map_cons,
      String.join_cons, Event.verboseOutput, String.append_assoc, loaded]
    rfl
  · simp only [Run.after, Trace.output, List.cons_append, List.nil_append, List.map_cons,
      String.join_cons, Event.output, String.empty_append]
    rfl

/-- A dialogue that is broken off finishes the program, and one that halts halts it. -/
theorem endingOf_result (run : Run Unit) :
    (run.result = .ok () → endingOf run = .finished) ∧
      ∀ cause, run.result = .error cause → endingOf run = .halted cause := by
  obtain ⟨result, machine, trace⟩ := run
  constructor
  · rintro ⟨⟩
    rfl
  · rintro _ ⟨⟩
    rfl

/-- The program shows its banner and then what a dialogue on a new machine with the core words shows, with
the lines of the input as its entries, and it ends as the dialogue ends: it finishes if that is broken off
at the prompt, and halts for the same cause if that halts. Asked to be verbose, it ends in the same way, and
what it shows is the same with the messages of the records inserted. -/
theorem run_verbose (input : String) :
    let machine := Machine.empty.defineCore
    (machine.Idle ∧ machine.stack = [] ∧ machine.applied = 0 ∧ machine.dictionary.HasCore ∧
      machine.dictionary.size = 21) ∧
    ∃ texts : List String,
      (∀ lines, Text.Lines input.toList lines ↔ lines = texts.map String.toList) ∧
        let dialogue := Dialogue.hold machine (texts.map .line)
        let plain := "OxForth 0.2.0 - https://github.com/xSetech/OxForth\n" ++ dialogue.run.trace.output
        ∃ ending,
          (dialogue.run.result = .ok () → ending = .finished) ∧
          (∀ cause, dialogue.run.result = .error cause → ending = .halted cause) ∧
          run [] input = ⟨plain, "", ending⟩ ∧
          ∀ flag ∈ ["-v", "--verbose"], ∃ whole, run [flag] input = ⟨whole, "", ending⟩ ∧
            Text.Inserted ("loaded 21 core words\n" :: dialogue.run.trace.messages) plain whole := by
  intro machine
  have entered : entries input = ((lines input.toList).map String.ofList).map .line := by
    rw [List.map_map]
    rfl
  refine ⟨⟨⟨rfl, rfl⟩, rfl, rfl, Dictionary.hasCore_defineCore _, by decide +kernel⟩,
    (lines input.toList).map String.ofList, fun found => ?_, ?_⟩
  · rw [Text.lines_iff, List.map_map]
    simp
  · intro dialogue plain
    have started (verbose : Bool) : start { verbose } input =
        ⟨if verbose then banner ++ "loaded 21 core words\n" ++ dialogue.run.trace.verboseOutput else plain,
          "", endingOf dialogue.run⟩ := by
      rw [start_eq, entered]
      rfl
    obtain ⟨finished, halted⟩ := endingOf_result dialogue.run
    refine ⟨endingOf dialogue.run, finished, halted, started false, fun flag named => ?_⟩
    have asked : run [flag] input = start { verbose := true } input := by
      simp only [List.mem_cons, List.not_mem_nil, or_false] at named
      rcases named with rfl | rfl <;> rfl
    refine ⟨_, asked.trans (started true), ?_⟩
    exact dialogue.run.trace.inserted_messages.behind banner "loaded 21 core words\n"

/-- A line that breaks a rule of the language, one that takes leave, and one behind it without its
newline, which is not read. -/
theorem run_verbose_leaving :
    let input := "1 2 foo\n+ BYE\n9"
    let plain := "OxForth 0.2.0 - https://github.com/xSetech/OxForth\nCtrl-C to exit\n\n" ++
      "< error: undefined word: foo\n< It's time to say goodbye~\n"
    let dialogue := Dialogue.hold Machine.empty.defineCore [.line "1 2 foo", .line "+ BYE", .line "9"]
    dialogue.unread = [.line "9"] ∧ run [] input = ⟨plain, "", .halted .bye⟩ ∧
      ∃ whole, run ["-v"] input = ⟨whole, "", .halted .bye⟩ ∧
        Text.Inserted ("loaded 21 core words\n" :: dialogue.run.trace.messages) plain whole := by
  intro input plain dialogue
  obtain ⟨_, texts, entered, result⟩ := run_verbose input
  have taken : texts = ["1 2 foo", "+ BYE", "9"] := by
    have pieces : Program.lines input.toList = ["1 2 foo", "+ BYE", "9"].map String.toList := by
      decide +kernel
    have same := (entered _).mp (Text.lines_iff.mpr pieces.symm)
    exact (List.map_inj_right fun _ _ => String.toList_inj.mp).mp same.symm
  obtain ⟨ending, _, halted, quiet, loud⟩ := taken ▸ result
  have left : dialogue.run.result = .error .bye := by decide +kernel
  have shown : "OxForth 0.2.0 - https://github.com/xSetech/OxForth\n" ++ dialogue.run.trace.output =
      plain := by decide +kernel
  cases halted .bye left
  exact ⟨by decide +kernel, shown ▸ quiet, shown ▸ loud "-v" (by simp)⟩

end Program

end LineForth
