import LineForth.Proofs.Stepwise
import Mathlib.Data.List.Induction

/-! # The core words

Every numeric operation has a name among the core words, no core word is taken for a number, and
loading them makes each stand for its operation (`Dictionary.hasCore_defineCore`). Where they do, a
core word comes to what its operation makes of the stack.
-/

namespace LineForth

open Text

def Unary.word : Unary → String
  | abs => "ABS"
  | negate => "NEGATE"
  | compareZero .equal => "0="
  | compareZero .unequal => "0<>"
  | compareZero .less => "0<"
  | compareZero .greater => "0>"

def Binary.word : Binary → String
  | add => "+"
  | sub => "-"
  | mul => "*"
  | div => "/"
  | mod => "MOD"
  | max => "MAX"
  | min => "MIN"
  | compare .equal => "="
  | compare .unequal => "<>"
  | compare .less => "<"
  | compare .greater => ">"

/-- The core words stand for what they are made to stand for. -/
def Dictionary.HasCore (dictionary : Dictionary) : Prop :=
  ∀ entry ∈ coreWords, dictionary[entry.1]? = some [entry.2]

theorem Unary.mem_coreWords (function : Unary) :
    (function.word, .unary function) ∈ Dictionary.coreWords := by
  rcases function with _ | _ | (_ | _ | _ | _) <;> decide

theorem Binary.mem_coreWords (function : Binary) :
    (function.word, .binary function) ∈ Dictionary.coreWords := by
  rcases function with _ | _ | _ | _ | _ | _ | _ | (_ | _ | _ | _) <;> decide

theorem Dictionary.graphic_coreWords :
    ∀ entry ∈ coreWords, entry.1.toList ≠ [] ∧ ∀ c ∈ entry.1.toList, isGraphic c = true := by
  simp only [← List.all_eq_true]
  decide

/-- No core word is made of digits alone, though some begin with one. -/
theorem Dictionary.not_isDigit_coreWords :
    ∀ entry ∈ coreWords, entry.1.toList.all Char.isDigit = false := by
  decide

theorem Dictionary.getElem?_foldl_insert (dictionary : Dictionary) {entries : List (String × Operation)}
    (distinct : (entries.map Prod.fst).Nodup) {entry : String × Operation} (member : entry ∈ entries) :
    (entries.foldl (fun words entry => words.insert entry.1 [entry.2]) dictionary)[entry.1]? =
      some [entry.2] := by
  -- Going backwards, the last entry either is the one asked for or has another name.
  induction entries using List.reverseRecOn with
  | nil => contradiction
  | append_singleton front last ih =>
    rw [List.map_append, List.nodup_append] at distinct
    obtain ⟨frontDistinct, _, apart⟩ := distinct
    rw [List.foldl_append, List.foldl_cons, List.foldl_nil, Std.TreeMap.getElem?_insert]
    rcases List.mem_append.mp member with earlier | final
    · have other : last.1 ≠ entry.1 :=
        (apart _ (List.mem_map_of_mem earlier) _ (List.mem_singleton_self _)).symm
      rw [if_neg (by simpa using other)]
      exact ih frontDistinct earlier
    · cases List.mem_singleton.mp final
      simp

/-- Defining the core words makes them stand for what they are made to stand for. -/
theorem Dictionary.hasCore_defineCore (dictionary : Dictionary) : dictionary.defineCore.HasCore :=
  fun _ member => getElem?_foldl_insert dictionary (by decide) member

namespace Machine

section

variable {machine : Machine} (free : machine.operations = []) (core : machine.dictionary.HasCore)
  {name : String} {operation : Operation}

include free core

/-- A core word makes of the stack what its operation makes of it, and is counted once. -/
theorem take_core (entry : (name, operation) ∈ Dictionary.coreWords) {stack : Stack}
    (effect : operation.apply machine.stack = .leaves stack) :
    machine.take name =
      .done () { machine with stack := stack, applied := machine.applied + 1 } := by
  rw [take_word machine (Dictionary.not_isDigit_coreWords _ entry) (core _ entry), executeAll_cons, effect]
  obtain ⟨dictionary, tokens, operations, lower, applied⟩ := machine
  cases free
  rfl

theorem take_core_fails (entry : (name, operation) ∈ Dictionary.coreWords) {cause : ExecutionError}
    (effect : operation.apply machine.stack = .fails cause) :
    machine.take name = .halt (.ofExecution cause) machine := by
  rw [take_word machine (Dictionary.not_isDigit_coreWords _ entry) (core _ entry), executeAll_cons, effect,
    ← free]
  rfl

end

end Machine

end LineForth
