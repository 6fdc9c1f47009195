import LineForth.Machine.Resolution
import Mathlib.Control.Monad.Basic

/-! # What a queue of tokens comes to

Any tokens may be queued, also by hand. Those that can be resolved push the values of the numbers and
queue the entries of the words, each kind in its own order, so it does not matter how numbers and words
stand among each other. The first token that cannot be resolved ends this: the tokens before it count,
and those behind it are dropped at an error of the language and stay queued at a defect
(`Machine.resolve_tokens`).
-/

namespace LineForth

namespace Token

/-- What a token cannot be resolved for: it is undefined, or its number is not read, or its word has no
entry any more. -/
inductive Unresolvable (dictionary : Dictionary) : Token → Halt → Prop
  | undefined {text : String} :
      Unresolvable dictionary ⟨text, .undefined⟩ (.ofParse (.undefinedWord text))
  | number {text : String} {cause : Halt} :
      readNumber text = .error cause → Unresolvable dictionary ⟨text, .number⟩ cause
  | word {text : String} :
      dictionary[text]? = none → Unresolvable dictionary ⟨text, .word⟩ (.defect (.missingEntry text))

/-- Nothing keeps the token from being resolved. -/
def Resolvable (dictionary : Dictionary) (token : Token) : Prop :=
  ∀ cause, ¬ token.Unresolvable dictionary cause

/-- The token at this index is the first that cannot be resolved. -/
structure FirstUnresolvable (dictionary : Dictionary) (tokens : List Token) (index : Nat) (cause : Halt) :
    Prop where
  before : ∀ token ∈ tokens.take index, token.Resolvable dictionary
  here : ∃ token, tokens[index]? = some token ∧ token.Unresolvable dictionary cause

def value? (token : Token) : Option Int :=
  match token.kind with
  | .number => (readNumber token.text).toOption
  | .word | .undefined => none

def entry (dictionary : Dictionary) (token : Token) : List Operation :=
  match token.kind with
  | .word => dictionary[token.text]?.getD []
  | .number | .undefined => []

theorem meaning_eq_error_iff {dictionary : Dictionary} {token : Token} {cause : Halt} :
    token.meaning dictionary = .error cause ↔ token.Unresolvable dictionary cause := by
  obtain ⟨text, kind⟩ := token
  constructor
  · intro refused
    cases kind with
    | number =>
      cases read : readNumber text with
      | ok value =>
        simp only [meaning, read] at refused
        contradiction
      | error other =>
        simp only [meaning, read] at refused
        cases refused
        exact .number read
    | word =>
      cases found : dictionary[text]? with
      | some operations =>
        simp only [meaning, found] at refused
        contradiction
      | none =>
        simp only [meaning, found] at refused
        cases refused
        exact .word found
    | undefined =>
      cases refused
      exact .undefined
  · intro unresolvable
    cases unresolvable with
    | undefined => rfl
    | number refused => simp only [meaning, refused, Except.map]
    | word missing => simp only [meaning, missing]

theorem resolvable_of_meaning {dictionary : Dictionary} {token : Token} {meaning : Meaning}
    (success : token.meaning dictionary = .ok meaning) : token.Resolvable dictionary := by
  intro cause unresolvable
  rw [meaning_eq_error_iff.mpr unresolvable] at success
  contradiction

theorem exists_meaning {dictionary : Dictionary} {token : Token} (resolvable : token.Resolvable dictionary) :
    ∃ meaning, token.meaning dictionary = .ok meaning := by
  cases outcome : token.meaning dictionary with
  | ok meaning => exact ⟨meaning, rfl⟩
  | error cause => exact absurd (meaning_eq_error_iff.mp outcome) (resolvable cause)

/-- A number is refused for its size, or else it lies outside the language. -/
theorem readNumber_refusal {text : String} {cause : Halt} (refused : readNumber text = .error cause) :
    cause = .ofParse (.numberOutOfRange text) ∨ ∃ defect, cause = .defect defect := by
  unfold readNumber at refused
  split at refused <;> cases refused
  · exact .inl rfl
  · exact .inr ⟨_, rfl⟩
  · exact .inr ⟨_, rfl⟩

theorem Unresolvable.isError_iff {dictionary : Dictionary} {token : Token} {cause : Halt}
    (unresolvable : token.Unresolvable dictionary cause) :
    cause.isError = true ↔ ∃ error, cause = .ofParse error := by
  constructor
  · intro error
    cases unresolvable with
    | undefined => exact ⟨_, rfl⟩
    | number refused =>
      rcases readNumber_refusal refused with rfl | ⟨defect, rfl⟩
      · exact ⟨_, rfl⟩
      · contradiction
    | word => contradiction
  · rintro ⟨error, rfl⟩
    rfl

section Order

variable (dictionary : Dictionary) (tokens : List Token)

/-- Values come from numbers alone. -/
theorem filterMap_value?_filter :
    (tokens.filter (·.kind = .number)).filterMap value? = tokens.filterMap value? := by
  rw [List.filterMap_filter]
  congr 1
  funext ⟨text, kind⟩
  cases kind <;> rfl

/-- Entries come from words alone. -/
theorem flatMap_entry_filter :
    (tokens.filter (·.kind = .word)).flatMap (entry dictionary) = tokens.flatMap (entry dictionary) := by
  induction tokens with
  | nil => rfl
  | cons token rest ih =>
    obtain ⟨text, kind⟩ := token
    cases kind with
    | word => simp only [List.filter_cons, decide_true, ↓reduceIte, List.flatMap_cons, ih]
    | number | undefined => simpa [List.filter_cons, List.flatMap_cons, entry] using ih

end Order

end Token

namespace Machine

open Token

/-- The machine with the values of the numbers pushed and the entries of the words queued. -/
def extend (machine : Machine) (tokens : List Token) : Machine :=
  machine.push ((tokens.filterMap value?).map .number)
    |>.queueOperations (tokens.flatMap (entry machine.dictionary))

@[simp] theorem extend_nil (machine : Machine) : machine.extend [] = machine := by
  simp [extend, push, queueOperations]

theorem extend_append (machine : Machine) (front back : List Token) :
    machine.extend (front ++ back) = (machine.extend front).extend back := by
  simp [extend, push, queueOperations, List.filterMap_append, List.flatMap_append]

/-- Numbers and words count each in their own order alone. -/
theorem extend_congr (machine : Machine) {tokens others : List Token}
    (numbers : others.filter (·.kind = .number) = tokens.filter (·.kind = .number))
    (words : others.filter (·.kind = .word) = tokens.filter (·.kind = .word)) :
    machine.extend others = machine.extend tokens := by
  rw [extend, extend, ← filterMap_value?_filter others, numbers, filterMap_value?_filter,
    ← flatMap_entry_filter _ others, words, flatMap_entry_filter]

/-- What a token asks for is what it adds. -/
theorem accept_of_meaning {machine : Machine} {token : Token} {meaning : Meaning}
    (success : token.meaning machine.dictionary = .ok meaning) :
    machine.accept meaning = machine.extend [token] := by
  obtain ⟨text, kind⟩ := token
  cases kind with
  | number =>
    cases read : readNumber text with
    | ok value =>
      simp only [Token.meaning, read] at success
      cases success
      simp [accept, extend, push, queueOperations, value?, entry, read, Except.toOption]
    | error cause =>
      simp only [Token.meaning, read] at success
      contradiction
  | word =>
    cases found : machine.dictionary[text]? with
    | some operations =>
      simp only [Token.meaning, found] at success
      cases success
      simp [accept, extend, push, queueOperations, value?, entry, found]
    | none =>
      simp only [Token.meaning, found] at success
      contradiction
  | undefined => contradiction

/-- Tokens that can be resolved are, whatever stands behind them. -/
theorem resolveAll_append {machine : Machine} {front : List Token}
    (resolvable : ∀ token ∈ front, token.Resolvable machine.dictionary) (back : List Token) :
    ∃ records, machine.resolveAll (front ++ back) =
      ((machine.extend front).resolveAll back).after records := by
  induction front generalizing machine with
  | nil => exact ⟨[], by rw [List.nil_append, extend_nil, Run.after_nil]⟩
  | cons token rest ih =>
    obtain ⟨head, tail⟩ := List.forall_mem_cons.mp resolvable
    obtain ⟨meaning, success⟩ := exists_meaning head
    obtain ⟨records, later⟩ := @ih (machine.extend [token]) tail
    refine ⟨.recorded (acceptance token meaning) :: records, ?_⟩
    rw [List.cons_append, resolveAll, success]
    simp only [accept_of_meaning success, later, Run.after_after, ← extend_append, List.singleton_append]

/-- Tokens that can all be resolved leave nothing queued but what they ask for. -/
theorem resolve_of_resolvable {machine : Machine}
    (resolvable : ∀ token ∈ machine.tokens, token.Resolvable machine.dictionary) :
    machine.resolve.result = .ok () ∧
      machine.resolve.machine = { machine.extend machine.tokens with tokens := [] } := by
  obtain ⟨records, whole⟩ := resolveAll_append resolvable []
  rw [List.append_nil] at whole
  rw [resolve, whole]
  exact ⟨rfl, rfl⟩

/-- The first token that cannot be resolved stops the run behind those before it. -/
theorem resolve_of_firstUnresolvable {machine : Machine} {index : Nat} {cause : Halt}
    (first : FirstUnresolvable machine.dictionary machine.tokens index cause) :
    machine.resolve.result = .error cause ∧
      machine.resolve.machine =
        { machine.extend (machine.tokens.take index) with
          tokens := if cause.isError then [] else machine.tokens.drop (index + 1) } := by
  obtain ⟨token, present, unresolvable⟩ := first.here
  obtain ⟨inside, rfl⟩ := List.getElem?_eq_some_iff.mp present
  have split : machine.tokens =
      machine.tokens.take index ++ machine.tokens[index] :: machine.tokens.drop (index + 1) := by
    rw [← List.drop_eq_getElem_cons inside, List.take_append_drop]
  obtain ⟨records, whole⟩ := resolveAll_append first.before
    (machine.tokens[index] :: machine.tokens.drop (index + 1))
  have refused : machine.tokens[index].meaning (machine.extend (machine.tokens.take index)).dictionary =
      .error cause := meaning_eq_error_iff.mpr unresolvable
  rw [← split, resolveAll, refused] at whole
  rw [resolve, whole]
  exact ⟨rfl, rfl⟩

/-- Any queue of tokens is resolved as far as its first token that cannot be. If there is none, the token
queue is empty at the end, the values of the numbers lie on the stack and the entries of the words stand
in the operation queue, each in order behind what was there; a queue with the same numbers and the same
words in the same order, mixed in any other way, leaves the same machine. If there is one, only the tokens
before it do this, and the run stops for its cause: an undefined word or a number out of range empties the
token queue, anything else leaves the tokens behind the one at fault. -/
theorem resolve_tokens (machine : Machine) :
    let run := machine.resolve
    let tokens := machine.tokens
    ((∀ token ∈ tokens, token.Resolvable machine.dictionary) →
      run.result = .ok () ∧ run.machine = { machine.extend tokens with tokens := [] } ∧
      ∀ others, others.Perm tokens →
        others.filter (·.kind = .number) = tokens.filter (·.kind = .number) →
        others.filter (·.kind = .word) = tokens.filter (·.kind = .word) →
        { machine with tokens := others }.resolve.result = .ok () ∧
          { machine with tokens := others }.resolve.machine = run.machine) ∧
    (∀ index cause, FirstUnresolvable machine.dictionary tokens index cause →
      run.result = .error cause ∧
      ∃ left, run.machine = { machine.extend (tokens.take index) with tokens := left } ∧
        ((∃ error, cause = .ofParse error) → left = []) ∧
        ((∀ error, cause ≠ .ofParse error) → left = tokens.drop (index + 1))) := by
  intro run tokens
  refine ⟨fun resolvable => ?_, fun index cause first => ?_⟩
  · obtain ⟨result, left⟩ := resolve_of_resolvable resolvable
    refine ⟨result, left, fun others permuted numbers words => ?_⟩
    have otherwise := @resolve_of_resolvable { machine with tokens := others }
      (fun token member => resolvable token (permuted.subset member))
    refine ⟨otherwise.1, otherwise.2.trans (Eq.trans ?_ left.symm)⟩
    rw [extend_congr _ numbers words]
    rfl
  · obtain ⟨result, left⟩ := resolve_of_firstUnresolvable first
    obtain ⟨token, _, unresolvable⟩ := first.here
    have error := unresolvable.isError_iff
    refine ⟨result, _, left, fun parse => ?_, fun other => ?_⟩
    · rw [if_pos (error.mpr parse)]
    · rw [if_neg fun parse => (error.mp parse).elim other]

/-- Two numbers and a word, with the word in two places; and with a word behind them whose entry is gone,
where the number after it stays queued. -/
theorem resolve_tokens_mixed :
    let tokens : List Token := [⟨"7", .number⟩, ⟨"DUP", .word⟩, ⟨"008", .number⟩]
    let others : List Token := [⟨"DUP", .word⟩, ⟨"7", .number⟩, ⟨"008", .number⟩]
    let machine := { empty.defineCore with tokens := tokens }
    let stale : Machine := { machine with tokens := tokens ++ [⟨"GONE", .word⟩, ⟨"9", .number⟩] }
    (∀ token ∈ tokens, token.Resolvable machine.dictionary) ∧ others.Perm tokens ∧
      machine.resolve.machine.stack = [.number 8, .number 7] ∧
      { machine with tokens := others }.resolve.machine = machine.resolve.machine ∧
      FirstUnresolvable stale.dictionary stale.tokens 3 (.defect (.missingEntry "GONE")) ∧
      stale.resolve.machine.tokens = [⟨"9", .number⟩] := by
  intro tokens others machine stale
  have resolvable : ∀ token ∈ tokens, token.Resolvable machine.dictionary := by
    refine List.forall_mem_cons.mpr ⟨?_, List.forall_mem_cons.mpr ⟨?_, List.forall_mem_singleton.mpr ?_⟩⟩
    · exact @resolvable_of_meaning _ _ (.push 7) (by decide +kernel)
    · exact @resolvable_of_meaning _ _ (.queue [.dup]) (by decide +kernel)
    · exact @resolvable_of_meaning _ _ (.push 8) (by decide +kernel)
  have permuted : others.Perm tokens := .swap ..
  have first : FirstUnresolvable stale.dictionary stale.tokens 3 (.defect (.missingEntry "GONE")) :=
    ⟨resolvable, ⟨"GONE", .word⟩, rfl, .word (by decide +kernel)⟩
  obtain ⟨_, left, alike⟩ := (resolve_tokens machine).1 resolvable
  obtain ⟨_, queued, stopped, _, defect⟩ := (resolve_tokens stale).2 3 _ first
  refine ⟨resolvable, permuted, ?_, (alike others permuted rfl rfl).2, first, ?_⟩
  · rw [left]
    decide +kernel
  · rw [stopped]
    exact defect (by simp [Halt.ofParse])

end Machine

end LineForth
