import LineForth.Proofs.Reading
import LineForth.Proofs.Settling

/-! # Taking runs one at a time

The interpretation of a line leaves out what is queued. Here a run of graphic characters is taken by
itself on the whole machine: digits are pushed, and the operations of a word are applied, those
behind one that halts staying queued (`Machine.take`). An idle machine comes to the same whether a
line is evaluated in batches or its runs are taken one at a time (`rounds_bare`), but for the records
and for the tokens that a defect leaves behind; where no defect stops it, no token is left at all
(`evaluate_silent`).
-/

namespace LineForth

open Number Text

namespace Run

variable {α β : Type}

@[simp] theorem andThen_done_unit (run : Run Unit) :
    (run.andThen fun _ machine => done () machine) = run := by
  obtain ⟨result, machine, trace⟩ := run
  cases result <;> simp [andThen, done, after]

/-- Only the value and the machine that a run ends with matter to what continues it. -/
theorem andThen_congr {run : Run α} {next further : α → Machine → Run β}
    (agree : ∀ value, run.result = .ok value → next value run.machine = further value run.machine) :
    run.andThen next = run.andThen further := by
  obtain ⟨result, machine, trace⟩ := run
  cases result with
  | ok value => exact congrArg (after trace) (agree value rfl)
  | error cause => rfl

/-- A run as it is without its records and without the tokens that it leaves queued. -/
def bare (run : Run Unit) : Run Unit :=
  ⟨run.result, { run.machine with tokens := [] }, run.trace.audible⟩

@[simp] theorem bare_silent (run : Run Unit) : run.silent.bare = run.bare := by
  simp only [bare, silent, Trace.audible_audible]

@[simp] theorem interpretation_bare (run : Run Unit) : run.bare.interpretation = run.interpretation := by
  simp only [bare, interpretation, Trace.output_audible, Machine.workspace]

@[simp] theorem bare_after_recorded (record : Record) (run : Run Unit) :
    (run.after [.recorded record]).bare = run.bare := by
  simp [bare, after, Trace.audible, Event.record?]

theorem silent_eq_bare {run : Run Unit} (drained : run.machine.tokens = []) : run.silent = run.bare := by
  obtain ⟨result, ⟨dictionary, tokens, operations, stack, applied⟩, trace⟩ := run
  cases drained
  rfl

/-- A run that leaves no token where it goes on is continued without regard to its tokens. -/
theorem bare_andThen {run : Run Unit} {next further : Unit → Machine → Run Unit}
    (drained : run.result = .ok () → run.machine.tokens = [])
    (agree : run.result = .ok () → (next () run.machine).bare = further () run.machine) :
    (run.andThen next).bare = run.bare.andThen further := by
  obtain ⟨result, ⟨dictionary, tokens, operations, stack, applied⟩, trace⟩ := run
  cases result with
  | error cause => rfl
  | ok value =>
    cases drained rfl
    have later := agree rfl
    simp only [andThen, bare, after, Trace.audible_append] at later ⊢
    rw [← later]

end Run

namespace Token

variable (dictionary : Dictionary) {run : String}

theorem kind_ofText :
    (ofText dictionary run).kind = .number ↔ run.toList.all Char.isDigit = true := by
  unfold ofText TokenKind.classify
  split
  · next digits => exact iff_of_true rfl digits
  · next word => split <;> exact iff_of_false (by simp) word

theorem meaning_ofText_digits (digits : run.toList.all Char.isDigit = true) :
    (ofText dictionary run).meaning dictionary = (readNumber run).map .push := by
  rw [meaning, (kind_ofText dictionary).mpr digits]
  rfl

theorem meaning_ofText_word (word : run.toList.all Char.isDigit = false) :
    (ofText dictionary run).meaning dictionary =
      match dictionary[run]? with
      | some operations => .ok (.queue operations)
      | none => .error (.ofParse (.undefinedWord run)) := by
  simp only [meaning, ofText, TokenKind.classify, word, Bool.false_eq_true, ↓reduceIte]
  rw [Std.TreeMap.contains_eq_isSome_getElem?]
  cases dictionary[run]? <;> rfl

end Token

namespace Machine

/-- Take one run: digits are a number to be pushed, and the operations of a word are applied. -/
def take (machine : Machine) (run : String) : Run Unit :=
  if run.toList.all Char.isDigit then
    match Token.readNumber run with
    | .ok value => .done () { machine with stack := .number value :: machine.stack }
    | .error cause => .halt cause machine
  else
    match machine.dictionary[run]? with
    | some operations => (machine.executeAll operations).silent
    | none => .halt (.ofParse (.undefinedWord run)) machine

def takeAll (machine : Machine) : List String → Run Unit
  | [] => .done () machine
  | run :: rest => (machine.take run).andThen fun _ next => next.takeAll rest

@[simp] theorem takeAll_singleton (machine : Machine) (run : String) :
    machine.takeAll [run] = machine.take run :=
  Run.andThen_done_unit _

theorem takeAll_append (machine : Machine) (front back : List String) :
    machine.takeAll (front ++ back) =
      (machine.takeAll front).andThen fun _ next => next.takeAll back := by
  induction front generalizing machine with
  | nil => rfl
  | cons run rest ih => simp only [List.cons_append, takeAll, Run.andThen_assoc, ih]

theorem take_digits (machine : Machine) {run : String} (digits : run.toList.all Char.isDigit = true) :
    machine.take run =
      match Token.readNumber run with
      | .ok value => .done () { machine with stack := .number value :: machine.stack }
      | .error cause => .halt cause machine := by
  rw [take, if_pos digits]

/-- A number that a cell holds is pushed, whatever the dictionary has under its digits. -/
theorem take_numeral (machine : Machine) {value : Nat} (fits : value ≤ greatestCell) :
    machine.take (toString value) =
      .done () { machine with stack := .number value :: machine.stack } := by
  have digits : (toString value).toList.all Char.isDigit = true :=
    List.all_eq_true.mpr (isDigit_numeral value)
  rw [take_digits machine digits, Token.readNumber_numeral fits]

theorem take_word (machine : Machine) {run : String} (word : run.toList.all Char.isDigit = false)
    {operations : List Operation} (entry : machine.dictionary[run]? = some operations) :
    machine.take run = (machine.executeAll operations).silent := by
  simp only [take, word, entry, Bool.false_eq_true, ↓reduceIte]

theorem take_undefined (machine : Machine) {run : String} (word : run.toList.all Char.isDigit = false)
    (unknown : machine.dictionary[run]? = none) :
    machine.take run = .halt (.ofParse (.undefinedWord run)) machine := by
  simp only [take, word, unknown, Bool.false_eq_true, ↓reduceIte]

/-- Taking a run is interpreting it, with what is queued kept in view. -/
theorem take_interpretation (machine : Machine) (run : String) :
    (machine.take run).interpretation =
      .ofRun Token.readNumber machine.workspace run := by
  rw [Interpretation.ofRun]
  cases digits : run.toList.all Char.isDigit with
  | true =>
    rw [take_digits machine digits]
    cases Token.readNumber run <;> rfl
  | false =>
    have same : machine.workspace.dictionary = machine.dictionary := rfl
    rw [same]
    cases entry : machine.dictionary[run]? with
    | none =>
      rw [take_undefined machine digits entry]
      rfl
    | some operations =>
      rw [take_word machine digits entry, Run.interpretation_silent]
      exact executeAll_interpretation machine operations

theorem takeAll_interpretation (machine : Machine) (runs : List String) :
    (machine.takeAll runs).interpretation =
      .ofRuns Token.readNumber machine.workspace runs := by
  induction runs generalizing machine with
  | nil => rfl
  | cons run rest ih =>
    rw [takeAll, Interpretation.ofRuns, ← take_interpretation]
    exact Run.interpretation_andThen fun _ => ih _

/-- A run that does not halt leaves nothing queued. -/
theorem Idle.take {machine : Machine} (idle : machine.Idle) {run : String}
    (success : (machine.take run).result = .ok ()) : (machine.take run).machine.Idle := by
  cases digits : run.toList.all Char.isDigit with
  | true =>
    rw [take_digits machine digits] at success ⊢
    cases read : Token.readNumber run with
    | ok value => exact ⟨idle.tokens, idle.operations⟩
    | error cause =>
      rw [read] at success
      contradiction
  | false =>
    cases entry : machine.dictionary[run]? with
    | none =>
      rw [take_undefined machine digits entry] at success
      contradiction
    | some operations =>
      rw [take_word machine digits entry] at success ⊢
      exact ⟨(executeAll_tokens machine operations).trans idle.tokens, executeAll_operations success⟩

theorem Idle.takeAll {machine : Machine} (idle : machine.Idle) {runs : List String}
    (success : (machine.takeAll runs).result = .ok ()) : (machine.takeAll runs).machine.Idle := by
  induction runs generalizing machine with
  | nil => exact idle
  | cons run rest ih =>
    unfold Machine.takeAll at success ⊢
    cases first : (machine.take run).result with
    | error cause =>
      rw [Run.andThen, first] at success
      contradiction
    | ok value =>
      simp only [Run.andThen, first] at success ⊢
      exact ih (idle.take first) success

/-- What is queued has no part in applying operations that are given. -/
theorem executeAll_queued (machine : Machine) (queued operations : List Operation) :
    ({ machine with operations := queued }).executeAll operations = machine.executeAll operations := by
  induction operations generalizing machine with
  | nil => rfl
  | cons operation rest ih =>
    simp only [executeAll_cons]
    cases operation.apply machine.stack with
    | leaves stack => simp only [ih { machine with stack := stack, applied := machine.applied + 1 }]
    | fails cause => rfl
    | bye => rfl

/-- The tokens of a batch come to what their runs come to one at a time. -/
theorem resolveAll_bare {machine : Machine} (free : machine.operations = []) {tokens : List Token}
    (kinds : ∀ token ∈ tokens, token = Token.ofText machine.dictionary token.text)
    (numbers : ∀ token ∈ tokens.dropLast, token.kind = .number) :
    ((machine.resolveAll tokens).andThen fun _ resolved => resolved.execute).bare =
      ({ machine with tokens := [] }).takeAll (tokens.map Token.text) := by
  induction tokens generalizing machine with
  | nil =>
    obtain ⟨dictionary, queued, operations, stack, applied⟩ := machine
    cases free
    rfl
  | cons token rest ih =>
    have kind := kinds token (List.mem_cons_self ..)
    have meaning := congrArg (Token.meaning machine.dictionary) kind
    rw [List.map_cons, takeAll, resolveAll, meaning]
    cases digits : token.text.toList.all Char.isDigit with
    | true =>
      have later : ∀ token ∈ rest.dropLast, token.kind = .number := by
        intro token member
        refine numbers token ?_
        rw [List.dropLast_cons_of_ne_nil (List.ne_nil_of_mem (List.dropLast_subset _ member))]
        exact List.mem_cons_of_mem _ member
      rw [take_digits _ digits, Token.meaning_ofText_digits _ digits]
      cases Token.readNumber token.text with
      | error cause => rfl
      | ok value =>
        simp only [Except.map, Run.andThen_after, Run.bare_after_recorded, Run.andThen_done]
        exact @ih (machine.accept (.push value)) free
          (fun token member => kinds token (List.mem_cons_of_mem _ member)) later
    | false =>
      -- Nothing but a number stands before another token, so the word is the last one.
      have last : rest = [] := by
        cases rest with
        | nil => rfl
        | cons next others =>
          have number := numbers token (by simp)
          rw [kind, Token.kind_ofText, digits] at number
          contradiction
      subst last
      rw [Token.meaning_ofText_word _ digits]
      cases entry : machine.dictionary[token.text]? with
      | none =>
        rw [take_undefined { machine with tokens := [] } digits entry]
        rfl
      | some operations =>
        rw [take_word { machine with tokens := [] } digits entry]
        simp only [Run.andThen_after, Run.bare_after_recorded, List.map_nil, takeAll,
          Run.andThen_done_unit, resolveAll, Run.andThen_done, execute, accept, queueOperations, free,
          List.nil_append]
        exact (Run.silent_eq_bare (executeAll_tokens _ _)).symm.trans <|
          congrArg Run.silent (executeAll_queued { machine with tokens := [], operations := [] }
            operations operations)

theorem round_bare {machine : Machine} (idle : machine.Idle) {text : List Char} {batch : Batch}
    {count : Nat} (takes : Batch.Takes machine.dictionary text batch.tokens count) :
    (machine.round batch).bare = machine.takeAll (batch.tokens.map Token.text) := by
  have queue : (machine.queueTokens batch.tokens).tokens = batch.tokens := by
    rw [queueTokens, idle.tokens, List.nil_append]
  have cleared : { machine.queueTokens batch.tokens with tokens := [] } = machine := by
    rw [← idle.tokens]
    rfl
  rw [← Run.bare_silent, round_silent, Run.bare_silent, settle, resolve, queue]
  rw [@resolveAll_bare (machine.queueTokens batch.tokens) idle.operations _ takes.eq_ofText
    takes.number_of_mem_dropLast, cleared]

/-- The runs of a text come to the same whole machine, however they are parted into batches. -/
theorem rounds_bare {machine : Machine} (idle : machine.Idle) {text : List Char} (closed : Closed text) :
    (machine.rounds text).bare = machine.takeAll (graphicRuns text) := by
  -- Each round leaves a closed text, and an idle machine if it does not halt.
  fun_induction rounds machine text with
  | case1 machine =>
    rw [graphicRuns_nil]
    exact (@Run.silent_eq_bare (.done () machine) idle.tokens).symm
  | case2 machine c rest batch ih =>
    obtain ⟨count, takes, left⟩ := Batch.takes_cut machine.dictionary closed
    have behind : Closed batch.rest := by
      rw [← List.take_append_drop count (c :: rest)] at closed
      exact left ▸ closed.of_append
    rw [takes.graphicRuns_eq, takeAll_append, ← round_bare idle takes, ← left]
    exact Run.bare_andThen (fun success => (round_idle success).tokens) fun success =>
      ih _ (round_idle success) behind

theorem rounds_drained {machine : Machine} (empty : machine.tokens = []) (text : List Char) :
    (machine.rounds text).Drained := by
  fun_induction rounds machine text with
  | case1 machine => exact fun _ => empty
  | case2 machine c rest batch ih =>
    exact (round_drained machine batch).andThen fun _ cleared => ih _ cleared

/-- A line that passes the checks comes to what its runs come to one at a time. -/
theorem evaluate_bare {machine : Machine} (idle : machine.Idle) {line : String}
    (readable : Readable line.toList) :
    (machine.evaluate line).bare = machine.takeAll (graphicRuns line.toList) := by
  rw [evaluate, (ScanError.ofLine?_eq_none_iff line.toList).mpr readable]
  exact rounds_bare idle readable.closed

theorem evaluate_drained {machine : Machine} (idle : machine.Idle) (line : String) :
    (machine.evaluate line).Drained := by
  unfold evaluate
  split
  · exact fun _ => idle.tokens
  · exact rounds_drained idle.tokens _

/-- Where no defect is come to, taking the runs one at a time gives the whole machine. -/
theorem evaluate_silent {machine : Machine} (idle : machine.Idle) {line : String}
    (readable : Readable line.toList)
    (sound : ∀ cause, (machine.takeAll (graphicRuns line.toList)).result ≠ .error (.defect cause)) :
    (machine.evaluate line).silent = machine.takeAll (graphicRuns line.toList) := by
  have same := evaluate_bare idle readable
  rw [← same]
  refine Run.silent_eq_bare (evaluate_drained idle line fun cause halted => sound cause ?_)
  rw [← same]
  exact halted

end Machine

end LineForth
