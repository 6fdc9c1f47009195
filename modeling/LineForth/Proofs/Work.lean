import LineForth.Proofs.Invariant
import LineForth.Proofs.Passes
import LineForth.Proofs.Resolution

/-! # The work of a line

A line asks for operations: those that are queued before it, then the entries of the words in the token
queue, then the entries of its own words, in order (`Machine.asked`). The operations that an evaluation
applies are the beginning of these, and all of them if it does not halt, and each that is applied is
counted once (`Run.Performs`). An operation that fails is the next one, and the last record tells of it
(`Run.Reports`). With the bound on the passes over a line this says what an evaluation costs, whatever is
pending before it (`Machine.evaluate_work`).
-/

namespace LineForth

open Text

namespace Record

/-- The operation that a record shows to have been applied. -/
def performed? : Record → Option Operation
  | applied operation _ => some operation
  | _ => none

def isFailure : Record → Bool
  | failed _ _ => true
  | _ => false

theorem performed?_eq_none {record : Record} (other : record.activity ≠ .executing) :
    record.performed? = none := by
  cases record with
  | applied operation stack => exact absurd rfl other
  | _ => rfl

theorem isFailure_eq_false {record : Record} (other : record.activity ≠ .executing) :
    record.isFailure = false := by
  cases record with
  | failed operation cause => exact absurd rfl other
  | _ => rfl

end Record

namespace Trace

def performed (trace : Trace) : List Operation := trace.records.filterMap Record.performed?

theorem performed_append (earlier later : Trace) :
    performed (earlier ++ later) = earlier.performed ++ later.performed := by
  rw [performed, records_append, List.filterMap_append]
  rfl

def Clean (trace : Trace) : Prop := ∀ record ∈ trace.records, record.isFailure = false

theorem Clean.append {earlier later : Trace} (first : earlier.Clean) (second : later.Clean) :
    Clean (earlier ++ later) := by
  rw [Clean, records_append]
  exact List.forall_mem_append.mpr ⟨first, second⟩

end Trace

/-- The run applies operations off the beginning of these, and all of them unless it halts. Each one is
counted. -/
structure Run.Performs {α : Type} (machine : Machine) (operations : List Operation) (run : Run α) :
    Prop where
  counted : run.machine.applied = machine.applied + run.trace.performed.length
  begun : run.trace.performed <+: operations
  whole : ∀ value, run.result = .ok value → run.trace.performed = operations

namespace Run.Performs

variable {α β : Type} {machine : Machine} {front back : List Operation}

theorem after {run : Run α} {next : Machine} {earlier : Trace} (later : run.Performs next back)
    (counted : next.applied = machine.applied + earlier.performed.length)
    (first : earlier.performed = front) : (run.after earlier).Performs machine (front ++ back) := by
  have together : (run.after earlier).trace.performed = front ++ run.trace.performed := by
    rw [← first]
    exact Trace.performed_append ..
  refine ⟨?_, ?_, fun value success => ?_⟩
  · rw [together, List.length_append, ← Nat.add_assoc, ← first, ← counted]
    exact later.counted
  · rw [together]
    exact (List.prefix_append_right_inj front).mpr later.begun
  · rw [together, later.whole value success]

theorem andThen {run : Run α} {next : α → Machine → Run β} (first : run.Performs machine front)
    (later : ∀ value, run.result = .ok value → (next value run.machine).Performs run.machine back) :
    (run.andThen next).Performs machine (front ++ back) := by
  obtain ⟨result, reached, trace⟩ := run
  cases result with
  | error cause => exact ⟨first.counted, first.begun.trans (List.prefix_append ..), by rintro _ ⟨⟩⟩
  | ok value => exact (later value rfl).after first.counted (first.whole value rfl)

end Run.Performs

/-- Beside performing what is asked for, the run tells of a failure in its last record alone, and only if it
ends in one. The operation that this record names is the next one asked for, and it does fail on the stack
that the run leaves. -/
structure Run.Reports {α : Type} (machine : Machine) (operations : List Operation) (run : Run α) : Prop
    extends Run.Performs machine operations run where
  clean : (∀ cause, run.result ≠ .error (.ofExecution cause)) → run.trace.Clean
  failure : ∀ cause, run.result = .error (.ofExecution cause) → ∃ earlier operation,
    run.trace.records = earlier ++ [.failed operation cause] ∧
    (∀ record ∈ earlier, record.isFailure = false) ∧
    run.trace.performed ++ [operation] <+: operations ∧
    operation.apply run.machine.stack = .fails cause

namespace Run.Reports

variable {α β : Type} {machine : Machine} {front back : List Operation}

/-- A run that applies nothing has nothing to report. -/
theorem unexecuted {run : Run α} (counted : run.machine.applied = machine.applied)
    (other : ∀ record ∈ run.trace.records, record.activity ≠ .executing)
    (sound : ∀ cause, run.result ≠ .error (.ofExecution cause)) : run.Reports machine [] := by
  have nothing : run.trace.performed = [] :=
    List.filterMap_eq_nil_iff.mpr fun record member => Record.performed?_eq_none (other record member)
  refine ⟨⟨?_, ?_, fun _ _ => nothing⟩,
    fun _ record member => Record.isFailure_eq_false (other record member),
    fun cause failed => absurd failed (sound cause)⟩
  · rw [nothing]
    exact counted
  · exact nothing ▸ List.prefix_rfl

theorem after {run : Run α} {next : Machine} {earlier : Trace} (later : run.Reports next back)
    (counted : next.applied = machine.applied + earlier.performed.length)
    (first : earlier.performed = front) (clean : earlier.Clean) :
    (run.after earlier).Reports machine (front ++ back) := by
  refine ⟨later.toPerforms.after counted first, fun other => clean.append (later.clean other),
    fun cause failed => ?_⟩
  obtain ⟨before, operation, records, quiet, asked, fails⟩ := later.failure cause failed
  refine ⟨earlier.records ++ before, operation, ?_, List.forall_mem_append.mpr ⟨clean, quiet⟩, ?_,
    fails⟩
  · rw [Run.after, Trace.records_append, records, List.append_assoc]
  · rw [Run.after, Trace.performed_append, first, List.append_assoc]
    exact (List.prefix_append_right_inj front).mpr asked

theorem andThen {run : Run α} {next : α → Machine → Run β} (first : run.Reports machine front)
    (later : ∀ value, run.result = .ok value → (next value run.machine).Reports run.machine back) :
    (run.andThen next).Reports machine (front ++ back) := by
  obtain ⟨result, reached, trace⟩ := run
  cases result with
  | error cause =>
    have performs := first.toPerforms.andThen fun value success => (later value success).toPerforms
    refine ⟨performs, fun other => first.clean fun error failed => ?_, fun error failed => ?_⟩
    · cases failed
      exact other error rfl
    · cases failed
      obtain ⟨before, operation, records, quiet, asked, fails⟩ := first.failure error rfl
      exact ⟨before, operation, records, quiet, asked.trans (List.prefix_append ..), fails⟩
  | ok value =>
    have clean : Trace.Clean trace := first.clean (by rintro _ ⟨⟩)
    exact (later value rfl).after first.counted (first.whole value rfl) clean

theorem thenRecord {run : Run α} {operations : List Operation} (reports : run.Reports machine operations)
    {record : Machine → Record} (other : ∀ next, (record next).activity ≠ .executing) :
    (run.thenRecord record).Reports machine operations := by
  rw [← List.append_nil operations]
  exact reports.andThen fun value _ =>
    .unexecuted rfl (List.forall_mem_singleton.mpr (other _)) (by rintro _ ⟨⟩)

end Run.Reports

/-- The entry that stands under the name of a run, empty where there is none. -/
def Dictionary.entry (dictionary : Dictionary) (run : String) : List Operation :=
  dictionary[run]?.getD []

/-- The operations that a line asks for, in the order in which they come to be applied. -/
def Machine.asked (machine : Machine) (text : List Char) : List Operation :=
  machine.operations ++ machine.tokens.flatMap (Token.entry machine.dictionary) ++
    (wordRuns text).flatMap machine.dictionary.entry

namespace Token

/-- A run asks for the entry of its name, unless it is a number. -/
theorem flatMap_entry_ofText (dictionary : Dictionary) (runs : List String) :
    (runs.map (ofText dictionary)).flatMap (entry dictionary) =
      (runs.filter (!·.toList.all Char.isDigit)).flatMap dictionary.entry := by
  induction runs with
  | nil => rfl
  | cons run rest ih =>
    rw [List.map_cons, List.flatMap_cons, ih]
    cases digits : run.toList.all Char.isDigit with
    | true =>
      rw [List.filter_cons_of_neg (by simp [digits])]
      simp [entry, ofText, TokenKind.classify, digits]
    | false =>
      rw [List.filter_cons_of_pos (by simp [digits]), List.flatMap_cons]
      congr 1
      simp only [entry, ofText, TokenKind.classify, digits, Dictionary.entry,
        Std.TreeMap.contains_eq_isSome_getElem?]
      cases dictionary[run]? <;> rfl

end Token

namespace Machine

theorem executeAll_reports (machine : Machine) (operations : List Operation) :
    (machine.executeAll operations).Reports machine operations := by
  induction operations generalizing machine with
  | nil => exact .unexecuted rfl (List.forall_mem_nil _) (by rintro _ ⟨⟩)
  | cons operation rest ih =>
    rw [executeAll_cons]
    cases effect : operation.apply machine.stack with
    | leaves stack =>
      exact @Run.Reports.after _ machine [operation] rest _ _ [.recorded (.applied operation stack)]
        (ih { machine with stack, applied := machine.applied + 1 }) rfl rfl
        (List.forall_mem_singleton.mpr rfl)
    | fails cause =>
      refine ⟨⟨rfl, List.nil_prefix, by rintro _ ⟨⟩⟩, fun other => absurd rfl (other cause), ?_⟩
      rintro _ ⟨⟩
      exact ⟨[], operation, rfl, List.forall_mem_nil _, List.prefix_append [operation] rest, effect⟩
    | bye =>
      refine ⟨⟨rfl, List.nil_prefix, ?_⟩, fun _ => List.forall_mem_nil _, ?_⟩
      · rintro _ ⟨⟩
      · rintro _ ⟨⟩

theorem resolveAll_activity (machine : Machine) (tokens : List Token) :
    ∀ record ∈ (machine.resolveAll tokens).trace.records, record.activity = .resolving := by
  induction tokens generalizing machine with
  | nil => exact List.forall_mem_nil _
  | cons token rest ih =>
    unfold resolveAll
    cases token.meaning machine.dictionary with
    | ok meaning =>
      refine List.forall_mem_cons.mpr ⟨?_, ih (machine.accept meaning)⟩
      cases meaning <;> rfl
    | error cause => exact List.forall_mem_nil _

/-- Resolving stops at nothing but a token that cannot be resolved. -/
theorem resolveAll_halted {machine : Machine} {tokens : List Token} {cause : Halt}
    (halted : (machine.resolveAll tokens).result = .error cause) :
    ∃ token : Token, token.Unresolvable machine.dictionary cause := by
  induction tokens generalizing machine with
  | nil => contradiction
  | cons token rest ih =>
    unfold resolveAll at halted
    cases meant : token.meaning machine.dictionary with
    | ok meaning =>
      rw [meant] at halted
      have dictionary : (machine.accept meaning).dictionary = machine.dictionary := by
        cases meaning <;> rfl
      rw [← dictionary]
      exact ih halted
    | error other =>
      rw [meant] at halted
      cases halted
      exact ⟨token, Token.meaning_eq_error_iff.mp meant⟩

theorem resolveAll_reports (machine : Machine) (tokens : List Token) :
    (machine.resolveAll tokens).Reports machine [] := by
  refine .unexecuted (resolveAll_frame machine tokens).2 (fun record member => ?_) fun cause failed => ?_
  · rw [resolveAll_activity machine tokens record member]
    decide
  · obtain ⟨token, unresolvable⟩ := resolveAll_halted failed
    obtain ⟨error, same⟩ := unresolvable.isError_iff.mp rfl
    cases same

/-- Tokens that are resolved to the end have queued what they ask for. -/
theorem resolveAll_of_ok {machine : Machine} {tokens : List Token}
    (success : (machine.resolveAll tokens).result = .ok ()) :
    (machine.resolveAll tokens).machine = { machine.extend tokens with tokens := [] } := by
  induction tokens generalizing machine with
  | nil => rw [extend_nil]; rfl
  | cons token rest ih =>
    unfold resolveAll at success ⊢
    cases meant : token.meaning machine.dictionary with
    | ok meaning =>
      rw [meant] at success
      rw [← List.singleton_append, extend_append, ← accept_of_meaning meant]
      exact ih success
    | error cause =>
      rw [meant] at success
      contradiction

/-- What is queued is applied behind the tokens that are read, and so is what they ask for. -/
theorem workOff_reports (read : Machine) :
    read.workOff.Reports read
      (read.operations ++ read.tokens.flatMap (Token.entry read.dictionary)) := by
  have resolved : (read.resolve.thenRecord fun resolved =>
      .batchResolved resolved.stack resolved.operations).Reports read [] :=
    (resolveAll_reports read read.tokens).thenRecord fun _ => by rintro ⟨⟩
  refine Run.Reports.thenRecord (resolved.andThen fun value success => ?_) fun _ => by rintro ⟨⟩
  rw [Run.result_thenRecord] at success
  rw [Run.machine_thenRecord, resolve, resolveAll_of_ok success]
  exact executeAll_reports _ _

theorem round_reports (machine : Machine) (batch : Batch) :
    (machine.round batch).Reports machine
      (machine.operations ++ (machine.tokens ++ batch.tokens).flatMap (Token.entry machine.dictionary)) := by
  have taken : (machine.takeIn batch).Reports machine [] := by
    refine .unexecuted rfl (fun record member => ?_) (by rintro _ ⟨⟩)
    obtain ⟨token, _, shown⟩ : ∃ token ∈ batch.tokens, Record.scanned token = record := by
      simpa [takeIn, Trace.records, Event.record?] using member
    rw [← shown]
    rintro ⟨⟩
  have read : ((machine.takeIn batch).thenRecord fun read => .batchRead read.tokens).Reports machine [] :=
    taken.thenRecord fun _ => by rintro ⟨⟩
  rw [round_eq]
  refine read.andThen fun _ _ => ?_
  rw [Run.machine_thenRecord]
  exact workOff_reports (machine.queueTokens batch.tokens)

theorem Idle.asked {machine : Machine} (idle : machine.Idle) (text : List Char) :
    machine.asked text = (wordRuns text).flatMap machine.dictionary.entry := by
  rw [Machine.asked, idle.operations, idle.tokens]
  rfl

/-- The rounds of a text perform what it asks for. -/
theorem rounds_reports {machine : Machine} {text : List Char} (closed : Closed text)
    (pending : text ≠ [] ∨ machine.Idle) : (machine.rounds text).Reports machine (machine.asked text) := by
  fun_induction rounds machine text with
  | case1 machine =>
    have idle : machine.Idle := pending.resolve_left (by simp)
    rw [idle.asked]
    exact .unexecuted rfl (List.forall_mem_nil _) (by rintro _ ⟨⟩)
  | case2 machine c rest batch ih =>
    obtain ⟨count, takes, left⟩ := Batch.takes_cut machine.dictionary closed
    have behind : Closed batch.rest := left ▸ closed.drop count
    have asked : machine.asked (c :: rest) =
        machine.operations ++ (machine.tokens ++ batch.tokens).flatMap (Token.entry machine.dictionary) ++
          (wordRuns batch.rest).flatMap machine.dictionary.entry := by
      rw [Machine.asked, wordRuns, takes.graphicRuns_eq, List.filter_append, List.flatMap_append,
        ← Token.flatMap_entry_ofText, takes.map_ofText, ← left, List.flatMap_append]
      simp only [List.append_assoc]
      rfl
    rw [asked]
    refine (round_reports machine batch).andThen fun value success => ?_
    have idle := round_idle success
    have reports := ih (machine.round batch).machine behind (.inr idle)
    rw [idle.asked, round_dictionary] at reports
    exact reports

theorem evaluate_reports (machine : Machine) {line : String} (pending : line ≠ "" ∨ machine.Idle) :
    (machine.evaluate line).Reports machine (machine.asked line.toList) := by
  unfold evaluate
  cases refused : ScanError.ofLine? line.toList with
  | some cause =>
    refine ⟨⟨rfl, List.nil_prefix, ?_⟩, fun _ => List.forall_mem_nil _, ?_⟩
    · rintro _ ⟨⟩
    · rintro _ ⟨⟩
  | none =>
    have readable := (ScanError.ofLine?_eq_none_iff line.toList).mp refused
    exact rounds_reports readable.closed (pending.imp_left fun some => by simpa using some)

theorem evaluate_performs (machine : Machine) {line : String} (some : line ≠ "") :
    (machine.evaluate line).Performs machine (machine.asked line.toList) :=
  (evaluate_reports machine (.inl some)).toPerforms

/-- What an evaluation costs, whatever is queued before it. The passes over the line come to an end in
one way, which is the evaluation, and each reads once; there are at most as many as runs of the line that
are no numbers, and one. If the line is not empty and goes well, the operations that were queued are
counted, and those of the entries of all words that were queued and of all such runs; if it halts, no
more than these. The empty line changes nothing. -/
theorem evaluate_work (machine : Machine) (line : String) :
    (∃ passes, machine.Passes line 0 passes (machine.evaluate line) ∧
      passes ≤ (wordRuns line.toList).length + 1 ∧
      ∀ other run, machine.Passes line 0 other run → other = passes ∧ run = machine.evaluate line) ∧
    (line ≠ "" → (machine.evaluate line).result = .ok () →
      (machine.evaluate line).machine.applied =
        machine.applied + (machine.asked line.toList).length) ∧
    (∀ cause, (machine.evaluate line).result = .error cause →
      (machine.evaluate line).machine.applied ≤
        machine.applied + (machine.asked line.toList).length) ∧
    machine.evaluate "" = .done () machine := by
  have empty : machine.evaluate "" = .done () machine := by
    have nothing : machine.rounds [] = .done () machine := by rw [rounds]
    exact nothing
  refine ⟨?_, fun some success => ?_, fun cause halted => ?_, empty⟩
  · obtain ⟨passes, made, few⟩ := evaluate_passes machine line
    exact ⟨passes, made, few, fun _ _ other => made.unique other⟩
  · obtain ⟨counted, _, whole⟩ := evaluate_performs machine some
    rw [counted, whole () success]
  · have some : line ≠ "" := by
      rintro rfl
      rw [empty] at halted
      contradiction
    obtain ⟨counted, begun, _⟩ := evaluate_performs machine some
    rw [counted]
    exact Nat.add_le_add_left begun.length_le _

/-- Four passes over three words, one of them with an empty entry, behind a word and an operation that
are queued; and a line that halts at its third operation. -/
theorem evaluate_work_pending :
    let machine := empty.defineCore.define "TWICE" [.dup, .binary .add] |>.define "SKIP" []
      |>.queueTokens [⟨"TWICE", .word⟩, ⟨"3", .number⟩] |>.queueOperations [.nop]
    (∃ passes, machine.Passes " SKIP 2 TWICE *  \n" 0 passes (machine.evaluate " SKIP 2 TWICE *  \n") ∧
      passes ≤ 4) ∧
      (machine.evaluate " SKIP 2 TWICE *  \n").machine.applied = 6 ∧
      (machine.evaluate "DROP DROP\n").machine.applied ≤ 5 := by
  intro machine
  obtain ⟨⟨passes, made, few, _⟩, whole, _⟩ := evaluate_work machine " SKIP 2 TWICE *  \n"
  have words : (wordRuns " SKIP 2 TWICE *  \n".toList).length = 3 := by decide
  have asked : (machine.asked " SKIP 2 TWICE *  \n".toList).length = 6 := by decide +kernel
  have success : (machine.evaluate " SKIP 2 TWICE *  \n").result = .ok () := by decide +kernel
  have halted : (machine.evaluate "DROP DROP\n").result = .error (.ofExecution .stackUnderflow) := by
    decide +kernel
  rw [words] at few
  refine ⟨⟨passes, made, few⟩, ?_, ?_⟩
  · rw [whole (by decide) success, asked]
    rfl
  · exact (evaluate_work machine "DROP DROP\n").2.2.1 _ halted

end Machine

end LineForth
