import LineForth.Proofs.Invariant
import LineForth.Proofs.Silence
import Mathlib.Control.Monad.Basic

/-! # A dialogue is made of its lines

A dialogue runs the texts that are entered, in order and each once, but for the blank ones
(`Machine.runLines`, `Dialogue.heeded`). It ends with the entries, at the first interrupt, or at the first
line that halts (`Dialogue.Takes`), and shows nothing but its greeting, a prompt for each entry, and what
its lines print (`Dialogue.transcript`). So `Dialogue.hold_runLines` says; a line that breaks a rule of
the language does not end it, though what it leaves on the stack counts for the lines behind it, and a
blank line adds a prompt and nothing else.
-/

namespace LineForth

theorem Run.andThen_of_ok {α β : Type} {run : Run α} {value : α} (went : run.result = .ok value)
    (next : α → Machine → Run β) : run.andThen next = (next value run.machine).after run.trace := by
  simp only [andThen, went]

namespace Machine

/-- Run lines one after the other, up to the first that halts. -/
def runLines (machine : Machine) : List String → Run Unit
  | [] => .done () machine
  | line :: rest => (machine.runLine line).andThen fun _ next => next.runLines rest

theorem runLines_append (machine : Machine) (front back : List String) :
    machine.runLines (front ++ back) =
      (machine.runLines front).andThen fun _ next => next.runLines back := by
  induction front generalizing machine with
  | nil => rfl
  | cons line rest ih => simp only [List.cons_append, runLines, Run.andThen_assoc, ih]

/-- An error of the language is answered, and the line does not halt. -/
theorem result_runLine_of_error {machine : Machine} {line : String} {cause : LanguageError}
    (failed : (machine.evaluate (line ++ "\n")).result = .error (.error cause)) :
    (machine.runLine line).result = .ok false := by
  simp only [runLine, Run.closed, Run.answered, failed]

end Machine

namespace Dialogue

/-- Of the texts that are entered, those that are not blank. -/
def heeded (texts : List String) : List String := texts.filter (!Text.isBlankText ·)

/-- What is shown for texts that are entered: a prompt for each, and what running it prints, which a
blank one is not. -/
def transcript (machine : Machine) : List String → String
  | [] => ""
  | text :: rest =>
      if Text.isBlankText text then prompt ++ transcript machine rest
      else
        let reply := machine.runLine text
        prompt ++ reply.trace.output ++ transcript reply.machine rest

/-- What is shown at the end: a dialogue that is broken off ends the line of its last prompt. -/
def parting : Except Halt Unit → String
  | .ok _ => prompt ++ "\n"
  | .error _ => ""

/-- None of the texts ends the dialogue. -/
def GoesOn (machine : Machine) (texts : List String) : Prop :=
  (machine.runLines (heeded texts)).result = .ok ()

instance (machine : Machine) (texts : List String) : Decidable (GoesOn machine texts) :=
  inferInstanceAs (Decidable (_ = _))

/-- Of the entries, a dialogue takes these texts and leaves the other entries unread. -/
inductive Takes (machine : Machine) : List Entry → List String → List Entry → Prop
  | toEnd {texts : List String} : GoesOn machine texts → Takes machine (texts.map .line) texts []
  | toInterrupt {texts : List String} {unread : List Entry} :
      GoesOn machine texts → Takes machine (texts.map .line ++ .interrupt :: unread) texts unread
  /-- The last text taken is the first line that halts. -/
  | toHalt {texts : List String} {last : String} {unread : List Entry} {cause : Halt} :
      GoesOn machine texts → (machine.runLines (heeded (texts ++ [last]))).result = .error cause →
      Takes machine (texts.map .line ++ .line last :: unread) (texts ++ [last]) unread

section Texts

variable {machine : Machine} {text : String}

theorem respond_eq (machine : Machine) (text : String) :
    machine.respond text = machine.runLines (heeded [text]) := by
  unfold Machine.respond heeded
  by_cases blank : Text.isBlankText text
  · rw [if_pos blank, List.filter_cons_of_neg (by simp [blank])]
    rfl
  · rw [if_neg blank, List.filter_cons_of_pos (by simp [blank])]
    rfl

theorem runLines_heeded_append (machine : Machine) (front back : List String) :
    machine.runLines (heeded (front ++ back)) =
      (machine.runLines (heeded front)).andThen fun _ next => next.runLines (heeded back) := by
  rw [heeded, List.filter_append, Machine.runLines_append]
  rfl

theorem runLines_heeded_cons (machine : Machine) (text : String) (rest : List String) :
    machine.runLines (heeded (text :: rest)) =
      (machine.respond text).andThen fun _ next => next.runLines (heeded rest) := by
  rw [respond_eq]
  exact runLines_heeded_append machine [text] rest

theorem transcript_cons (machine : Machine) (text : String) (rest : List String) :
    transcript machine (text :: rest) =
      prompt ++ (machine.respond text).trace.output ++
        transcript (machine.respond text).machine rest := by
  unfold Machine.respond
  rw [transcript]
  by_cases blank : Text.isBlankText text
  · rw [if_pos blank, if_pos blank]
    simp only [Run.done, Trace.output, List.map_nil, String.join_nil, String.append_empty]
  · rw [if_neg blank, if_neg blank, Run.machine_andThen_done, Run.trace_andThen_done]

theorem runLines_heeded_cons_of_ok (answered : (machine.respond text).result = .ok ())
    (rest : List String) :
    machine.runLines (heeded (text :: rest)) =
      ((machine.respond text).machine.runLines (heeded rest)).after (machine.respond text).trace := by
  rw [runLines_heeded_cons, Run.andThen_of_ok answered]

theorem goesOn_cons {rest : List String} :
    GoesOn machine (text :: rest) ↔
      (machine.respond text).result = .ok () ∧ GoesOn (machine.respond text).machine rest := by
  rw [GoesOn, runLines_heeded_cons]
  cases outcome : (machine.respond text).result with
  | ok value => simp only [Run.andThen, outcome, Run.after, GoesOn, true_and]
  | error cause => simp only [Run.andThen, outcome, reduceCtorEq, false_and]

theorem transcript_append {front : List String} (goesOn : GoesOn machine front) (back : List String) :
    transcript machine (front ++ back) =
      transcript machine front ++ transcript (machine.runLines (heeded front)).machine back := by
  induction front generalizing machine with
  | nil => exact String.empty_append.symm
  | cons text rest ih =>
    obtain ⟨answered, goesOn⟩ := goesOn_cons.mp goesOn
    rw [List.cons_append, transcript_cons, transcript_cons, runLines_heeded_cons_of_ok answered,
      ih goesOn, ← String.append_assoc]
    rfl

end Texts

section Entries

variable {machine : Machine} {texts : List String} {unread entries : List Entry}

theorem converse_line_ok {text : String} (answered : (machine.respond text).result = .ok ())
    (entries : List Entry) :
    converse machine (.line text :: entries) =
      follow ((machine.respond text).after [.printed prompt]) entries := by
  simp only [converse, follow, Run.after, answered]

theorem converse_line_error {text : String} {cause : Halt}
    (halted : (machine.respond text).result = .error cause) (entries : List Entry) :
    converse machine (.line text :: entries) =
      ⟨(machine.respond text).after [.printed prompt], entries⟩ := by
  simp only [converse, Run.after, halted]

/-- Where no text ends it, a dialogue comes to the entries behind them on the machine that running the
texts leaves, with their transcript behind it. -/
theorem converse_append (goesOn : GoesOn machine texts) (entries : List Entry) :
    ∃ earlier : Trace, earlier.output = transcript machine texts ∧
      converse machine (texts.map .line ++ entries) =
        follow ⟨.ok (), (machine.runLines (heeded texts)).machine, earlier⟩ entries := by
  induction texts generalizing machine with
  | nil => exact ⟨[], rfl, rfl⟩
  | cons text rest ih =>
    obtain ⟨answered, goesOn⟩ := goesOn_cons.mp goesOn
    obtain ⟨later, shown, continued⟩ := ih goesOn
    refine ⟨[.printed prompt] ++ (machine.respond text).trace ++ later, ?_, ?_⟩
    · rw [Trace.output_append, Trace.output_append, shown, transcript_cons]
      rfl
    · rw [List.map_cons, List.cons_append, converse_line_ok answered,
        runLines_heeded_cons_of_ok answered]
      simp only [answered, follow, Run.after, continued, List.append_assoc]

/-- A text that does not end the dialogue is taken before those that are taken behind it. -/
theorem Takes.cons {text : String} (answered : (machine.respond text).result = .ok ())
    (takes : Takes (machine.respond text).machine entries texts unread) :
    Takes machine (.line text :: entries) (text :: texts) unread := by
  cases takes with
  | toEnd goesOn => exact .toEnd (goesOn_cons.mpr ⟨answered, goesOn⟩)
  | toInterrupt goesOn => exact .toInterrupt (goesOn_cons.mpr ⟨answered, goesOn⟩)
  | @toHalt before last _ cause goesOn halted =>
    have stopped : (machine.runLines (heeded (text :: before ++ [last]))).result = .error cause := by
      rwa [List.cons_append, runLines_heeded_cons_of_ok answered]
    exact .toHalt (goesOn_cons.mpr ⟨answered, goesOn⟩) stopped

/-- Whatever is entered, a dialogue takes some texts and leaves the entries behind them. -/
theorem exists_takes (machine : Machine) (entries : List Entry) :
    ∃ texts unread, Takes machine entries texts unread := by
  have idle (next : Machine) : GoesOn next [] := rfl
  induction entries generalizing machine with
  | nil => exact ⟨[], [], .toEnd (idle machine)⟩
  | cons entry rest ih =>
    cases entry with
    | interrupt => exact ⟨[], rest, .toInterrupt (idle machine)⟩
    | line text =>
      cases answered : (machine.respond text).result with
      | error cause =>
        rw [respond_eq] at answered
        exact ⟨[text], rest, .toHalt (idle machine) answered⟩
      | ok _ =>
        obtain ⟨texts, unread, takes⟩ := ih (machine.respond text).machine
        exact ⟨text :: texts, unread, takes.cons answered⟩

/-- What a dialogue comes to that is broken off at the prompt. -/
theorem converse_of_breakOff (goesOn : GoesOn machine texts)
    (broken : ∀ next, converse next entries = breakOff next unread) :
    let dialogue := converse machine (texts.map .line ++ entries)
    let reply := machine.runLines (heeded texts)
    dialogue.unread = unread ∧ dialogue.run.result = reply.result ∧
      dialogue.run.machine = reply.machine ∧
      dialogue.run.trace.output = transcript machine texts ++ parting reply.result := by
  obtain ⟨earlier, shown, continued⟩ := converse_append goesOn entries
  unfold GoesOn at goesOn
  simp only [continued, follow, broken, breakOff, Run.after, goesOn, Trace.output_append, shown,
    true_and]
  rfl

/-- What a dialogue that takes these texts comes to. -/
theorem converse_of_takes (takes : Takes machine entries texts unread) :
    let dialogue := converse machine entries
    let reply := machine.runLines (heeded texts)
    dialogue.unread = unread ∧ dialogue.run.result = reply.result ∧
      dialogue.run.machine = reply.machine ∧
      dialogue.run.trace.output = transcript machine texts ++ parting reply.result := by
  cases takes with
  | toEnd goesOn =>
    rw [← List.append_nil (texts.map Entry.line)]
    exact converse_of_breakOff goesOn fun _ => rfl
  | toInterrupt goesOn => exact converse_of_breakOff goesOn fun _ => rfl
  | @toHalt before last _ cause goesOn halted =>
    obtain ⟨earlier, shown, continued⟩ := converse_append goesOn (.line last :: unread)
    have ran : machine.runLines (heeded (before ++ [last])) =
        ((machine.runLines (heeded before)).machine.respond last).after
          (machine.runLines (heeded before)).trace := by
      rw [runLines_heeded_append, Run.andThen_of_ok goesOn, ← respond_eq]
    rw [ran] at halted ⊢
    rw [continued, follow, converse_line_error halted, transcript_append goesOn, transcript_cons]
    refine ⟨rfl, rfl, rfl, ?_⟩
    simp only [Run.after] at halted
    simp only [Run.after, Trace.output_append, shown, halted, parting, transcript, String.append_empty]
    rfl

/-- A blank text adds a prompt. -/
theorem converse_blank {blank : String} (empty : Text.isBlankText blank = true) (machine : Machine)
    (entries : List Entry) :
    converse machine (.line blank :: entries) =
      follow ⟨.ok (), machine, [.printed prompt]⟩ entries := by
  have passed : machine.respond blank = .done () machine := if_pos empty
  rw [converse_line_ok (by rw [passed]; rfl), passed]
  rfl

theorem hold_append (goesOn : GoesOn machine texts) (entries : List Entry) :
    ∃ earlier : Trace, earlier.output = greeting ++ transcript machine texts ∧
      hold machine (texts.map .line ++ entries) =
        follow ⟨.ok (), (machine.runLines (heeded texts)).machine, earlier⟩ entries := by
  obtain ⟨earlier, shown, continued⟩ := converse_append goesOn entries
  refine ⟨[.printed greeting] ++ earlier, ?_, ?_⟩
  · rw [Trace.output_append, shown]
    rfl
  · simp only [hold, greet, follow, continued, Run.after, List.append_assoc]

/-- Behind the same texts, a dialogue with a blank text between shows one prompt more. -/
theorem hold_blank {blank : String} (goesOn : GoesOn machine texts)
    (empty : Text.isBlankText blank = true) (rest : List Entry) :
    let without := hold machine (texts.map .line ++ rest)
    let between := hold machine (texts.map .line ++ .line blank :: rest)
    between.unread = without.unread ∧ between.run.result = without.run.result ∧
      between.run.machine = without.run.machine ∧
      ∃ front back, without.run.trace.output = front ++ back ∧
        between.run.trace.output = front ++ prompt ++ back := by
  obtain ⟨earlier, shown, continued⟩ := hold_append goesOn rest
  obtain ⟨further, alike, passed⟩ := hold_append goesOn (.line blank :: rest)
  rw [follow, converse_blank empty] at passed
  rw [continued, passed]
  let later := converse (machine.runLines (heeded texts)).machine rest
  refine ⟨rfl, rfl, rfl, greeting ++ transcript machine texts, later.run.trace.output, ?_, ?_⟩
  · rw [follow, Run.after, Trace.output_append, shown]
  · simp only [follow, Run.after, Trace.output_append, alike, String.append_assoc]
    rfl

/-- A line that breaks a rule of the language is answered, and the dialogue goes on behind it. -/
theorem goesOn_of_error {line : String} {cause : LanguageError} (goesOn : GoesOn machine texts)
    (heard : Text.isBlankText line = false)
    (failed : ((machine.runLines (heeded texts)).machine.evaluate (line ++ "\n")).result =
      .error (.error cause)) :
    GoesOn machine (texts ++ [line]) ∧
      (machine.runLines (heeded (texts ++ [line]))).machine =
        ((machine.runLines (heeded texts)).machine.runLine line).machine := by
  have answered := Machine.result_runLine_of_error failed
  have alone : heeded [line] = [line] := List.filter_cons_of_pos (by simp [heard])
  rw [GoesOn, runLines_heeded_append, Run.andThen_of_ok goesOn, alone, Machine.runLines,
    Run.andThen_of_ok answered]
  exact ⟨rfl, rfl⟩

end Entries

/-- A dialogue takes its entries in order up to the end, the first interrupt or the first line that
halts, and leaves the others unread. It comes to what running the taken texts that are not blank comes
to, and shows their transcript between its greeting and its parting. A blank text put in before the end
adds a prompt and changes nothing else, and behind a line that breaks a rule of the language the entries
are taken as they are on the machine that it leaves. -/
theorem hold_runLines (machine : Machine) (entries : List Entry) :
    let dialogue := hold machine entries
    (∃ texts, Takes machine entries texts dialogue.unread) ∧
      (∀ texts unread, Takes machine entries texts unread →
        let reply := machine.runLines (heeded texts)
        dialogue.unread = unread ∧ dialogue.run.result = reply.result ∧
          dialogue.run.machine = reply.machine ∧
          dialogue.run.trace.output =
            greeting ++ transcript machine texts ++ parting reply.result) ∧
      (∀ texts blank rest, entries = texts.map .line ++ rest → GoesOn machine texts →
        Text.isBlankText blank = true →
        let other := hold machine (texts.map .line ++ .line blank :: rest)
        other.unread = dialogue.unread ∧ other.run.result = dialogue.run.result ∧
          other.run.machine = dialogue.run.machine ∧
          ∃ front back, dialogue.run.trace.output = front ++ back ∧
            other.run.trace.output = front ++ prompt ++ back) ∧
      (∀ texts line rest cause, entries = texts.map .line ++ .line line :: rest →
        GoesOn machine texts → Text.isBlankText line = false →
        let current := (machine.runLines (heeded texts)).machine
        (current.evaluate (line ++ "\n")).result = .error (.error cause) →
        GoesOn machine (texts ++ [line]) ∧
          dialogue.unread = (hold (current.runLine line).machine rest).unread) := by
  intro dialogue
  refine ⟨?_, ?_, ?_, ?_⟩
  · obtain ⟨texts, unread, takes⟩ := exists_takes machine entries
    have read : dialogue.unread = unread := (converse_of_takes takes).1
    exact ⟨texts, read ▸ takes⟩
  · intro texts unread takes
    obtain ⟨read, result, left, shown⟩ := converse_of_takes takes
    refine ⟨read, result, left, ?_⟩
    rw [String.append_assoc, ← shown]
    exact Trace.output_append ..
  · rintro texts blank rest rfl goesOn empty
    exact hold_blank goesOn empty rest
  · rintro texts line rest cause rfl goesOn heard current failed
    obtain ⟨goesFurther, left⟩ := goesOn_of_error goesOn heard failed
    refine ⟨goesFurther, ?_⟩
    obtain ⟨earlier, _, continued⟩ := hold_append goesFurther rest
    rw [List.map_append, List.append_assoc, left] at continued
    have read := congrArg Dialogue.unread continued
    exact read

/-- Three texts are taken, of which one underflows and the last takes leave, and two entries are left. -/
theorem hold_runLines_leaving :
    let machine := Machine.empty.defineCore
    let rest : List Entry := [.line "7 BYE 8", .line "9", .interrupt]
    let entries := ["1 2", "+ +"].map .line ++ rest
    GoesOn machine ["1 2", "+ +"] ∧
      Takes machine entries ["1 2", "+ +", "7 BYE 8"] [.line "9", .interrupt] ∧
      (hold machine entries).unread = [.line "9", .interrupt] ∧
      (hold machine entries).run.result = .error .bye ∧
      (hold machine entries).run.trace.output =
        "Ctrl-C to exit\n\n< ok: 1 2\n< error: stack underflow\n< It's time to say goodbye~\n" ∧
      (hold machine (["1 2", "+ +"].map .line ++ .line "\t" :: rest)).unread =
        (hold machine entries).unread := by
  intro machine rest entries
  obtain ⟨-, taken, blank, broken⟩ := hold_runLines machine entries
  have failed : ((machine.runLines (heeded ["1 2"])).machine.evaluate "+ +\n").result =
      .error (.error (.execution .stackUnderflow)) := by decide +kernel
  have goesOn : GoesOn machine ["1 2", "+ +"] :=
    (broken ["1 2"] "+ +" rest _ rfl (by decide +kernel) rfl failed).1
  have halted : (machine.runLines (heeded (["1 2", "+ +"] ++ ["7 BYE 8"]))).result = .error .bye := by
    decide +kernel
  have takes : Takes machine entries ["1 2", "+ +", "7 BYE 8"] [.line "9", .interrupt] :=
    .toHalt goesOn halted
  obtain ⟨read, result, _, shown⟩ := taken _ _ takes
  refine ⟨goesOn, takes, read, result.trans halted, ?_, (blank _ "\t" rest rfl goesOn rfl).1⟩
  rw [shown]
  decide +kernel

/-- A line that breaks a rule of the language may well change which entries are read behind it: this one
leaves two numbers, so the next line takes leave that would have failed on an empty stack. -/
theorem not_unread_of_error :
    ¬ ∀ (machine : Machine) (line : String) (rest : List Entry) (cause : LanguageError),
      (machine.evaluate (line ++ "\n")).result = .error (.error cause) →
        (hold machine (.line line :: rest)).unread = (hold machine rest).unread := by
  intro unchanged
  have failed : (Machine.empty.defineCore.evaluate ("1 2 foo" ++ "\n")).result =
      .error (.error (.parse (.undefinedWord "foo"))) := by decide +kernel
  have same := unchanged _ _ [.line "+ BYE", .line "9"] _ failed
  have behind : (hold Machine.empty.defineCore
      [.line "1 2 foo", .line "+ BYE", .line "9"]).unread = [.line "9"] := by decide +kernel
  have alone : (hold Machine.empty.defineCore [.line "+ BYE", .line "9"]).unread = [] := by
    decide +kernel
  rw [behind, alone] at same
  contradiction

end Dialogue

end LineForth
