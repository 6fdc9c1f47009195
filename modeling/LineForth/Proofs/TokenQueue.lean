import LineForth.Proofs.Conduct
import LineForth.Proofs.Pending

/-! # What stands in the token queue

Tokens are taken for numbers and words when they are read, and resolved later, with other requests in
between. As long as no name is taken out of the dictionary and no token is queued by hand, every
queued token stays well formed (`Token.WellFormed`): it is a run of graphic characters, a number just
when it is made of digits, and a word only under a name that still has an entry. So resolving never
misses an entry and never meets a malformed number, at any point of a session that begins on a new
machine (`Session.queue_wellFormed`).
-/

namespace LineForth

open Number Text Literal

/-- The tokens that reading makes, as long as their entries are kept. -/
structure Token.WellFormed (dictionary : Dictionary) (token : Token) : Prop where
  begun : token.text.toList ≠ []
  graphic : ∀ c ∈ token.text.toList, isGraphic c = true
  number_iff : token.kind = .number ↔ ∀ c ∈ token.text.toList, c.isDigit = true
  known : token.kind = .word → dictionary.contains token.text = true

/-- Every queued token is well formed under the present dictionary. -/
def Machine.QueueWellFormed (machine : Machine) : Prop :=
  ∀ token ∈ machine.tokens, token.WellFormed machine.dictionary

/-- The defects that lie in a request itself, or in the length of a literal. The others lie in what
the queue holds. -/
def Defect.OfRequest : Defect → Prop
  | startBeforeLine | startOutOfReach | tooManyDigits _ => True
  | missingEntry _ | malformedNumber _ => False

/-- All requests but those that take a name out of the dictionary or queue tokens by hand. -/
def Step.KeepsQueue : Step → Prop
  | forget _ | queueTokens _ => False
  | _ => True

/-- The machines that a session goes through, the first one included. -/
def Session.states (machine : Machine) (steps : List Step) : List Machine :=
  machine :: (Session.run machine steps).map (·.machine)

namespace Token

theorem wellFormed_ofText (dictionary : Dictionary) {run : String} (begun : run.toList ≠ [])
    (graphic : ∀ c ∈ run.toList, isGraphic c = true) : (ofText dictionary run).WellFormed dictionary where
  begun := begun
  graphic := graphic
  number_iff := (kind_ofText dictionary).trans List.all_eq_true
  known := by
    intro word
    simp only [ofText, TokenKind.classify] at word ⊢
    split at word
    · contradiction
    · split at word
      · assumption
      · contradiction

/-- A dictionary that grows keeps tokens well formed. -/
theorem WellFormed.mono {dictionary larger : Dictionary} {token : Token}
    (wellFormed : token.WellFormed dictionary)
    (grows : ∀ name, dictionary.contains name = true → larger.contains name = true) :
    token.WellFormed larger :=
  { wellFormed with known := fun word => grows _ (wellFormed.known word) }

/-- A well-formed token stops a run only at an error of the language, or by being overlong. -/
theorem WellFormed.meaning_defect {dictionary : Dictionary} {token : Token}
    (wellFormed : token.WellFormed dictionary) {cause : Defect}
    (refused : token.meaning dictionary = .error (.defect cause)) :
    Overlong token.text ∧ cause = .tooManyDigits token.text.length := by
  cases kind : token.kind with
  | number =>
    rw [meaning, kind] at refused
    cases read : readNumber token.text with
    | ok value =>
      rw [read] at refused
      contradiction
    | error halt =>
      rw [read] at refused
      cases refused
      rcases readNumber_error wellFormed.begun (wellFormed.number_iff.mp kind) read with
        range | ⟨overlong, long⟩
      · contradiction
      · cases long
        exact ⟨overlong, rfl⟩
  | word =>
    have known := wellFormed.known kind
    rw [Std.TreeMap.contains_eq_isSome_getElem?] at known
    obtain ⟨operations, entry⟩ := Option.isSome_iff_exists.mp known
    rw [meaning, kind] at refused
    simp only [entry] at refused
    contradiction
  | undefined =>
    rw [meaning, kind] at refused
    cases refused

end Token

theorem Dictionary.contains_insert_of_contains {dictionary : Dictionary} {name : String}
    (known : dictionary.contains name = true) (added : String) (operations : List Operation) :
    (dictionary.insert added operations).contains name = true := by
  rw [Std.TreeMap.contains_insert, known, Bool.or_true]

theorem Dictionary.contains_defineCore {dictionary : Dictionary} {name : String}
    (known : dictionary.contains name = true) : dictionary.defineCore.contains name = true := by
  unfold defineCore
  generalize coreWords = entries
  induction entries generalizing dictionary with
  | nil => exact known
  | cons entry rest ih => exact ih (contains_insert_of_contains known entry.1 [entry.2])

/-- Whatever is pending of a run, a batch holds well-formed tokens alone. -/
theorem Batch.wellFormed_of_mem_cutFrom (dictionary : Dictionary) {pending : List Char}
    (graphic : ∀ c ∈ pending, isGraphic c = true) (text : List Char) :
    ∀ token ∈ (cutFrom dictionary pending text).tokens, token.WellFormed dictionary := by
  induction text generalizing pending with
  | nil => simp [cutFrom]
  | cons c rest ih =>
    have fresh := @ih [] (by simp)
    simp only [cutFrom]
    split
    · next inside => exact ih (by simpa [inside] using graphic)
    · split
      · exact fresh
      · next begun =>
        have first : (Token.ofText dictionary (String.ofList pending.reverse)).WellFormed dictionary :=
          Token.wellFormed_ofText dictionary (by simpa using begun) (by simpa using graphic)
        split
        · exact List.forall_mem_cons.mpr ⟨first, fresh⟩
        · exact List.forall_mem_singleton.mpr first

namespace Machine

theorem resolveAll_tokens_subset (machine : Machine) (tokens : List Token) :
    (machine.resolveAll tokens).machine.tokens ⊆ tokens := by
  induction tokens generalizing machine with
  | nil => exact List.Subset.refl _
  | cons token rest ih =>
    unfold resolveAll
    cases token.meaning machine.dictionary with
    | ok meaning => exact List.subset_cons_of_subset _ (ih (machine.accept meaning))
    | error cause =>
      change (if cause.isError then [] else rest) ⊆ token :: rest
      split
      · exact List.nil_subset _
      · exact List.subset_cons_self ..

/-- Well-formed tokens are resolved without a defect but the one of overlong literals. -/
theorem resolveAll_defect {machine : Machine} {tokens : List Token}
    (wellFormed : ∀ token ∈ tokens, token.WellFormed machine.dictionary) {cause : Defect}
    (halted : (machine.resolveAll tokens).result = .error (.defect cause)) :
    ∃ token ∈ tokens, Overlong token.text ∧ cause = .tooManyDigits token.text.length := by
  induction tokens generalizing machine with
  | nil => contradiction
  | cons token rest ih =>
    obtain ⟨first, later⟩ := List.forall_mem_cons.mp wellFormed
    unfold resolveAll at halted
    cases success : token.meaning machine.dictionary with
    | error refusal =>
      rw [success] at halted
      cases halted
      exact ⟨token, List.mem_cons_self .., first.meaning_defect success⟩
    | ok meaning =>
      rw [success] at halted
      have same : (machine.accept meaning).dictionary = machine.dictionary := by cases meaning <;> rfl
      obtain ⟨found, member, overlong⟩ := @ih (machine.accept meaning) (same ▸ later) halted
      exact ⟨found, List.mem_cons_of_mem _ member, overlong⟩

theorem executeAll_no_defect (machine : Machine) (operations : List Operation) (cause : Defect) :
    (machine.executeAll operations).result ≠ .error (.defect cause) := by
  intro halted
  obtain ⟨_, operation, _, reached, _, _, stops, _⟩ := executeAll_halted halted
  cases effect : operation.apply reached.stack <;> rw [effect] at stops <;> cases stops

end Machine

/-- The run leaves a well-formed queue, and no defect of a queued token stops it. -/
structure Run.Orderly {α : Type} (run : Run α) : Prop where
  queue : run.machine.QueueWellFormed
  sound : ∀ cause, run.result = .error (.defect cause) → cause.OfRequest

def Conduct.orderly : Conduct where
  machine := Machine.QueueWellFormed
  halt stop := ∀ cause, stop = .defect cause → cause.OfRequest
  record _ := True

theorem Run.Keeps.orderly {α : Type} {run : Run α} (keeps : run.Keeps .orderly) : run.Orderly where
  queue := keeps.machine
  sound cause halted := keeps.halt _ halted cause rfl

namespace Machine

theorem resolve_orderly {machine : Machine} (queue : machine.QueueWellFormed) :
    machine.resolve.Keeps .orderly where
  machine := by
    intro token member
    rw [resolve, (resolveAll_frame machine machine.tokens).1]
    exact queue token (resolveAll_tokens_subset machine machine.tokens member)
  halt := by
    rintro _ halted cause rfl
    obtain ⟨_, _, _, rfl⟩ := resolveAll_defect queue halted
    trivial
  record _ _ := trivial

theorem execute_orderly {machine : Machine} (queue : machine.QueueWellFormed) :
    machine.execute.Keeps .orderly where
  machine := by
    change QueueWellFormed (executeAll _ _).machine
    rw [QueueWellFormed, (executeAll_frame machine _).1, executeAll_tokens]
    exact queue
  halt := by
    rintro _ halted cause rfl
    exact absurd halted (executeAll_no_defect machine _ cause)
  record _ _ := trivial

/-- A larger dictionary keeps the queue well formed. -/
theorem QueueWellFormed.grow {machine : Machine} (queue : machine.QueueWellFormed) {larger : Dictionary}
    (grows : ∀ name, machine.dictionary.contains name = true → larger.contains name = true) :
    ({ machine with dictionary := larger }).QueueWellFormed :=
  fun token member => (queue token member).mono grows

theorem defineCore_queue {machine : Machine} (queue : machine.QueueWellFormed) :
    machine.defineCore.QueueWellFormed :=
  queue.grow fun _ known => Dictionary.contains_defineCore known

theorem define_queue {machine : Machine} (queue : machine.QueueWellFormed) (name : String)
    (operations : List Operation) : (machine.define name operations).QueueWellFormed :=
  queue.grow fun _ known => Dictionary.contains_insert_of_contains known name operations

end Machine

theorem Conduct.orderly_kept : Conduct.orderly.Kept where
  queue machine text queue := List.forall_mem_append.mpr
    ⟨queue, Batch.wellFormed_of_mem_cutFrom machine.dictionary (by simp) text⟩
  resolve _ := Machine.resolve_orderly
  execute _ := Machine.execute_orderly
  discard _ _ := List.forall_mem_nil _
  refuse _ _ := nofun
  refuseStart start := by
    rintro _ ⟨⟩
    unfold Machine.refuseStart
    split <;> trivial
  display _ _ _ := trivial

/-- Every request that keeps the queue is carried out in order. -/
theorem Step.run_orderly {machine : Machine} {step : Step} (kept : step.KeepsQueue)
    (queue : machine.QueueWellFormed) : (step.run machine).Keeps .orderly := by
  refine Conduct.orderly_kept.request queue (fun changes => ?_) ?_
  · cases step with
    | loadCore => exact Machine.defineCore_queue queue
    | define name operations => exact Machine.define_queue queue name operations
    | queueOperations | push | setStack => exact queue
    | forget | queueTokens => exact kept.elim
    | _ => exact changes.elim
  · rintro name rfl
    exact kept.elim

namespace Session

theorem run_orderly {machine : Machine} (queue : machine.QueueWellFormed) {steps : List Step}
    (kept : ∀ step ∈ steps, step.KeepsQueue) : ∀ reply ∈ run machine steps, reply.Orderly :=
  fun reply member => (run_keeps (fun _ _ => Step.run_orderly) queue kept reply member).orderly

/-- In a session on a new machine, in which no name is taken out of the dictionary and no token is
queued by hand, the queue is well formed in every state: each of its tokens is a run of graphic
characters, a number if and only if it is made of digits, and a word only under a name with an entry.
Resolving the queue of such a state can therefore come to no other defect than an overlong literal
in it, and no request of the session comes to a missing entry or a malformed number. -/
theorem queue_wellFormed {steps : List Step} (kept : ∀ step ∈ steps, step.KeepsQueue) :
    (∀ machine ∈ states Machine.empty steps,
      (∀ token ∈ machine.tokens, token.WellFormed machine.dictionary) ∧
      ∀ cause, machine.resolve.result = .error (.defect cause) →
        ∃ token ∈ machine.tokens, Overlong token.text ∧ cause = .tooManyDigits token.text.length) ∧
    ∀ reply ∈ run Machine.empty steps, ∀ cause, reply.result = .error (.defect cause) →
      cause.OfRequest := by
  have queue : Machine.empty.QueueWellFormed := List.forall_mem_nil _
  have orderly := run_orderly queue kept
  have wellFormed : ∀ machine ∈ states Machine.empty steps, machine.QueueWellFormed :=
    List.forall_mem_cons.mpr ⟨queue, List.forall_mem_map.mpr fun reply member =>
      (orderly reply member).queue⟩
  refine ⟨fun machine member => ⟨wellFormed machine member, fun cause halted => ?_⟩,
    fun reply member => (orderly reply member).sound⟩
  exact Machine.resolveAll_defect (wellFormed machine member) halted

/-- A session whose queue outlives the requests that fill it: a reading that wraps, three that are
refused, a definition that changes what a queued word means, and an unknown name at the end. -/
theorem queue_wellFormed_wrapping :
    let steps : List Step := [.loadCore, .scan "DUP 7 1\n" (-4), .scan "5" 0, .scan "5\n" (-3),
      .scan "" (-9223372036854775809), .define "DUP" [.drop, .nop], .resolve,
      .scan "8 SQUARE " 0, .define "SQUARE" [.dup, .binary .mul], .resolve]
    (∀ step ∈ steps, step.KeepsQueue) ∧
      (∀ machine ∈ states Machine.empty steps,
        ∀ token ∈ machine.tokens, token.WellFormed machine.dictionary) ∧
      (∀ reply ∈ run Machine.empty steps, ∀ cause, reply.result = .error (.defect cause) →
        cause.OfRequest) ∧
      (states Machine.empty steps).map (·.tokens.length) = [0, 0, 3, 3, 3, 3, 3, 0, 2, 2, 0] := by
  intro steps
  have kept : ∀ step ∈ steps, step.KeepsQueue := by simp [steps, Step.KeepsQueue]
  obtain ⟨wellFormed, sound⟩ := queue_wellFormed kept
  exact ⟨kept, fun machine member => (wellFormed machine member).1, sound, by decide +kernel⟩

end Session

end LineForth
