import LineForth.Machine.Execution
import LineForth.Proofs.Literal

/-! # Interpretation run by run

What a line means, without queues, batches and records: its runs of graphic characters are taken one
after the other, each against what the runs before it left, up to the first that halts. Evaluation is
compared with this. How a run of digits is read is left open: the reader of literals and the plain
decimal value part only at the overlong literals (`Interpretation.ofRuns_readNumber`).
-/

namespace LineForth

open Number

/-- The part of a machine that outlives a line. -/
structure Workspace where
  dictionary : Dictionary
  stack : Stack
  applied : Nat

/-- What a line, or a part of one, comes to. -/
structure Interpretation where
  result : Except Halt Unit
  workspace : Workspace
  output : String

/-- The decimal value of a run of digits, unless it is greater than what a cell holds. -/
def decimal (run : String) : Except Halt Int :=
  if (Nat.ofDigitChars 10 run.toList 0 : Int) ≤ greatestCell
    then .ok (Nat.ofDigitChars 10 run.toList 0)
    else .error (.ofParse (.numberOutOfRange run))

namespace Interpretation

def done (workspace : Workspace) : Interpretation := ⟨.ok (), workspace, ""⟩

def halt (cause : Halt) (workspace : Workspace) : Interpretation := ⟨.error cause, workspace, ""⟩

/-- Go on from what an interpretation leaves, unless it halts. -/
def andThen (first : Interpretation) (next : Workspace → Interpretation) : Interpretation :=
  match first.result with
  | .ok _ =>
      let later := next first.workspace
      { later with output := first.output ++ later.output }
  | .error _ => first

def ofOperation (workspace : Workspace) (operation : Operation) : Interpretation :=
  match operation.apply workspace.stack with
  | .leaves stack => done { workspace with stack := stack, applied := workspace.applied + 1 }
  | .fails cause => halt (.ofExecution cause) workspace
  | .bye => ⟨.error .bye, workspace, Machine.farewell⟩

def ofOperations (workspace : Workspace) : List Operation → Interpretation
  | [] => done workspace
  | operation :: rest =>
      (ofOperation workspace operation).andThen fun next => ofOperations next rest

/-- Take one run: digits are a number to be pushed, whatever the dictionary holds under them, and
anything else has to be a word. -/
def ofRun (read : String → Except Halt Int) (workspace : Workspace) (run : String) : Interpretation :=
  if run.toList.all Char.isDigit then
    match read run with
    | .ok value => done { workspace with stack := .number value :: workspace.stack }
    | .error cause => halt cause workspace
  else
    match workspace.dictionary[run]? with
    | some operations => ofOperations workspace operations
    | none => halt (.ofParse (.undefinedWord run)) workspace

def ofRuns (read : String → Except Halt Int) (workspace : Workspace) : List String → Interpretation
  | [] => done workspace
  | run :: rest => (ofRun read workspace run).andThen fun next => ofRuns read next rest

@[simp] theorem done_andThen (workspace : Workspace) (next : Workspace → Interpretation) :
    (done workspace).andThen next = next workspace := by
  simp [done, andThen]

@[simp] theorem halt_andThen (cause : Halt) (workspace : Workspace)
    (next : Workspace → Interpretation) : (halt cause workspace).andThen next = halt cause workspace :=
  rfl

theorem andThen_of_error {first : Interpretation} {cause : Halt} (halted : first.result = .error cause)
    (next : Workspace → Interpretation) : first.andThen next = first := by
  rw [andThen, halted]

theorem andThen_assoc (first : Interpretation) (next last : Workspace → Interpretation) :
    (first.andThen next).andThen last = first.andThen fun workspace => (next workspace).andThen last := by
  obtain ⟨result, workspace, output⟩ := first
  cases result with
  | error cause => rfl
  | ok value =>
    simp only [andThen]
    cases outcome : (next workspace).result <;> simp only [String.append_assoc, outcome]

variable {read : String → Except Halt Int}

/-- Runs that stand behind others are taken against what those leave. -/
theorem ofRuns_append (workspace : Workspace) (front back : List String) :
    ofRuns read workspace (front ++ back) =
      (ofRuns read workspace front).andThen fun next => ofRuns read next back := by
  induction front generalizing workspace with
  | nil => simp [ofRuns]
  | cons run rest ih => simp only [List.cons_append, ofRuns, andThen_assoc, ih]

/-- Of the runs of digits only the overlong ones are not taken for their decimal value. -/
theorem ofRun_readNumber (workspace : Workspace) {run : String} (begun : run.toList ≠ [])
    (plain : ¬ Literal.Overlong run) :
    ofRun Token.readNumber workspace run = ofRun decimal workspace run := by
  unfold ofRun
  split
  · next digits =>
    rw [Token.readNumber_of_isDigit begun (List.all_eq_true.mp digits) plain]
    rfl
  · rfl

theorem ofRun_of_overlong (workspace : Workspace) {run : String} (overlong : Literal.Overlong run) :
    ofRun Token.readNumber workspace run = halt (.defect (.tooManyDigits run.length)) workspace := by
  rw [ofRun, if_pos (List.all_eq_true.mpr overlong.digits), Token.readNumber_of_overlong overlong]

theorem ofRuns_readNumber (workspace : Workspace) {runs : List String}
    (begun : ∀ run ∈ runs, run.toList ≠ []) (plain : ∀ run ∈ runs, ¬ Literal.Overlong run) :
    ofRuns Token.readNumber workspace runs = ofRuns decimal workspace runs := by
  induction runs generalizing workspace with
  | nil => rfl
  | cons run rest ih =>
    have first := ofRun_readNumber workspace (begun run (List.mem_cons_self ..))
      (plain run (List.mem_cons_self ..))
    have later : ∀ next, ofRuns Token.readNumber next rest = ofRuns decimal next rest :=
      fun next => ih next (fun run member => begun run (List.mem_cons_of_mem _ member))
        (fun run member => plain run (List.mem_cons_of_mem _ member))
    simp only [ofRuns, first, later]

end Interpretation

end LineForth
