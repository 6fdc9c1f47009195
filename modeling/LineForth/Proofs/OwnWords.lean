import LineForth.Proofs.View

/-! # A line depends on its own words alone

Evaluation asks the dictionary for the runs of a line that are not digits, and for nothing else: not for
their beginnings, not for other spellings, and not for a number that happens to be an entry. Machines
whose dictionaries agree on those runs therefore go through the line alike, and changing any other entry
changes nothing (`Machine.evaluate_congr_words`). Tokens that were queued earlier would be looked up as
well, so there must be none.
-/

namespace LineForth

open Text

/-- The runs go alike; their machines may differ in the dictionary. -/
structure Run.Alike (first second : Run Unit) : Prop where
  result : first.result = second.result
  tokens : first.machine.tokens = second.machine.tokens
  operations : first.machine.operations = second.machine.operations
  stack : first.machine.stack = second.machine.stack
  applied : first.machine.applied = second.machine.applied
  trace : first.trace = second.trace

/-- What makes a name none of those that a text looks up. -/
inductive Text.NotLookedUp (text : List Char) (name : String) : Prop
  | digits : (∀ c ∈ name.toList, c.isDigit = true) → NotLookedUp text name
  | empty : name = "" → NotLookedUp text name
  | unreadable (c : Char) : c ∈ name.toList → isGraphic c = false ∨ isAscii c = false →
      NotLookedUp text name
  | absent : name ∉ graphicRuns text → NotLookedUp text name

/-- A name that is not looked up may be a run, but then it is a number. -/
theorem Text.NotLookedUp.ne {text : List Char} {name run : String} (other : NotLookedUp text name)
    (member : run ∈ graphicRuns text) (word : run.toList.all Char.isDigit = false) : name ≠ run := by
  rintro rfl
  obtain ⟨begun, graphic⟩ := graphic_of_mem_graphicRuns member
  cases other with
  | digits digits =>
    rw [List.all_eq_true.mpr digits] at word
    contradiction
  | empty empty =>
    subst empty
    contradiction
  | unreadable c present unreadable =>
    have visible := graphic c present
    rcases unreadable with hidden | foreign
    · rw [visible] at hidden
      contradiction
    · rw [isAscii_of_isGraphic visible] at foreign
      contradiction
  | absent absent => exact absent member

namespace Dictionary

variable {text : List Char} {name : String}

theorem agreeOn_insert (dictionary : Dictionary) (other : NotLookedUp text name)
    (operations : List Operation) :
    dictionary.AgreeOn (dictionary.insert name operations) (graphicRuns text) := by
  intro run member word
  rw [Std.TreeMap.getElem?_insert, if_neg (by simpa using other.ne member word)]

theorem agreeOn_erase (dictionary : Dictionary) (other : NotLookedUp text name) :
    dictionary.AgreeOn (dictionary.erase name) (graphicRuns text) := by
  intro run member word
  rw [Std.TreeMap.getElem?_erase, if_neg (by simpa using other.ne member word)]

end Dictionary

def View.under (dictionary : Dictionary) : View where
  dictionary _ := dictionary

theorem View.transparent_under (dictionary : Dictionary) :
    (View.under dictionary).Transparent fun _ => True where
  push _ _ := rfl
  carries operation stack _ := by
    change operation.apply stack = (operation.apply stack).map id
    cases operation.apply stack <;> rfl

theorem View.event_under (dictionary : Dictionary) : (View.under dictionary).event = id := by
  funext event
  cases event with
  | printed text => rfl
  | recorded record => cases record <;> rfl

theorem Run.alike_through (dictionary : Dictionary) (run : Run Unit) :
    run.Alike (run.through (.under dictionary)) where
  result := rfl
  tokens := rfl
  operations := rfl
  stack := rfl
  applied := rfl
  trace := by rw [Run.through, View.event_under, List.map_id]

namespace Machine

theorem evaluate_alike {first second : Machine} {line : String} (empty : first.tokens = [])
    (same : second = { first with dictionary := second.dictionary })
    (agree : first.dictionary.AgreeOn second.dictionary (graphicRuns line.toList)) :
    (first.evaluate line).Alike (second.evaluate line) := by
  have seen : second.evaluate line = (first.evaluate line).through (.under second.dictionary) := by
    rw [same]
    refine evaluate_through (View.transparent_under second.dictionary) ?_ agree fun _ _ => trivial
    rw [empty]
    exact List.forall_mem_nil _
  rw [seen]
  exact Run.alike_through second.dictionary _

/-- On machines without queued tokens that are alike but for their dictionaries, and whose dictionaries
agree on the runs of a line that are not digits, the line goes alike: the ends, the queues, the stacks,
the counts and all that is printed and recorded are the same, and each dictionary stays. So defining a
name that the line does not look up, or taking it out of the dictionary, changes nothing. -/
theorem evaluate_congr_words {first second : Machine} {line : String} (firstEmpty : first.tokens = [])
    (secondEmpty : second.tokens = []) (operations : first.operations = second.operations)
    (stack : first.stack = second.stack) (applied : first.applied = second.applied)
    (agree : ∀ run ∈ graphicRuns line.toList, run.toList.all Char.isDigit = false →
      first.dictionary[run]? = second.dictionary[run]?) :
    (first.evaluate line).Alike (second.evaluate line) ∧
      (first.evaluate line).machine.dictionary = first.dictionary ∧
      (second.evaluate line).machine.dictionary = second.dictionary ∧
      ∀ name, NotLookedUp line.toList name →
        (∀ body, (first.evaluate line).Alike ((first.define name body).evaluate line)) ∧
        ∀ without, first.forget? name = some without →
          (first.evaluate line).Alike (without.evaluate line) := by
  refine ⟨?_, (evaluate_frame first line).1, (evaluate_frame second line).1, fun name other => ⟨?_, ?_⟩⟩
  · refine evaluate_alike firstEmpty ?_ agree
    rw [firstEmpty, operations, stack, applied, ← secondEmpty]
  · intro body
    exact evaluate_alike firstEmpty rfl (first.dictionary.agreeOn_insert other body)
  · intro without forgotten
    unfold forget? at forgotten
    split at forgotten
    · cases forgotten
      exact evaluate_alike firstEmpty rfl (first.dictionary.agreeOn_erase other)
    · contradiction

/-- A dictionary that holds, besides the two words of the line, a number, a beginning of a word and the
empty name: the line does not notice them, nor that all other core words are missing. -/
theorem evaluate_congr_words_strange :
    let line := "12 DUP 3 MOD\t\n"
    let first := empty.defineCore
    let second := (((empty.define "DUP" [.dup]).define "MOD" [.binary .mod]).define "12" [.bye]).define
      "MO" [.drop] |>.define "" [.bye]
    first.tokens = [] ∧ second.tokens = [] ∧ first.operations = second.operations ∧
      first.stack = second.stack ∧ first.applied = second.applied ∧
      (∀ run ∈ graphicRuns line.toList, run.toList.all Char.isDigit = false →
        first.dictionary[run]? = second.dictionary[run]?) ∧
      NotLookedUp line.toList "dup" ∧
      (first.evaluate line).Alike (second.evaluate line) ∧
      (first.evaluate line).Alike ((first.define "dup" [.bye]).evaluate line) ∧
      (second.evaluate line).machine.stack = [.number 0, .number 12] := by
  intro line first second
  have agree : ∀ run ∈ graphicRuns line.toList, run.toList.all Char.isDigit = false →
      first.dictionary[run]? = second.dictionary[run]? := by decide +kernel
  have other : NotLookedUp line.toList "dup" := .absent (by decide)
  obtain ⟨alike, _, _, changes⟩ :=
    @evaluate_congr_words first second line rfl rfl rfl rfl rfl agree
  exact ⟨rfl, rfl, rfl, rfl, rfl, agree, other, alike, (changes "dup" other).1 [.bye],
    by decide +kernel⟩

end Machine

end LineForth
