import LineForth.Proofs.Text.GraphicRuns
import LineForth.Token.Batch
import Mathlib.Data.List.TakeWhile

/-! # What a batch takes off a text

A batch is described by the runs of graphic characters of the text it is cut off: the numbers that
come first and the first run that is none. `Batch.takes_cut` says that cutting does just that. The
batch neither loses nor repeats a run (`Takes.graphicRuns_eq`) and takes at least one character off
a text that has any (`Takes.count_pos`).
-/

namespace LineForth.Batch

open Text

/-- One reading may take these tokens off a text, out of so many of its first characters. -/
inductive Takes (dictionary : Dictionary) (text : List Char) : List Token → Nat → Prop
  /-- A text whose runs are all numbers is read to its end. -/
  | toEnd :
      (∀ run ∈ graphicRuns text, TokenKind.classify dictionary run = .number) →
      Takes dictionary text ((graphicRuns text).map (Token.ofText dictionary)) text.length
  /-- The first run that is no number is the last one read, and the delimiter that ends it is the
  last character. -/
  | toWord {before after : List Char} {run : String} {delimiter : Char} :
      text = before ++ run.toList ++ delimiter :: after →
      Closed before → run.toList ≠ [] → (∀ c ∈ run.toList, isGraphic c = true) →
      isGraphic delimiter = false →
      (∀ earlier ∈ graphicRuns before, TokenKind.classify dictionary earlier = .number) →
      TokenKind.classify dictionary run ≠ .number →
      Takes dictionary text ((graphicRuns before ++ [run]).map (Token.ofText dictionary))
        (before.length + run.length + 1)

namespace Takes

variable {dictionary : Dictionary} {text : List Char} {tokens : List Token} {count : Nat}

/-- A closed text of numbers in front of what is read is read as well. -/
theorem behind {front : List Char} (closed : Closed front)
    (numbers : ∀ run ∈ graphicRuns front, TokenKind.classify dictionary run = .number)
    (takes : Takes dictionary text tokens count) :
    Takes dictionary (front ++ text)
      ((graphicRuns front).map (Token.ofText dictionary) ++ tokens) (front.length + count) := by
  cases takes with
  | toEnd all =>
    have whole : ∀ run ∈ graphicRuns (front ++ text),
        TokenKind.classify dictionary run = .number := by
      rw [graphicRuns_append closed]
      exact List.forall_mem_append.mpr ⟨numbers, all⟩
    have taken := Takes.toEnd whole
    rwa [graphicRuns_append closed, List.map_append, List.length_append] at taken
  | @toWord before after run delimiter split closedBefore begun graphic ends earlier word =>
    have whole : ∀ run ∈ graphicRuns (front ++ before),
        TokenKind.classify dictionary run = .number := by
      rw [graphicRuns_append closed]
      exact List.forall_mem_append.mpr ⟨numbers, earlier⟩
    have joined : front ++ text = (front ++ before) ++ run.toList ++ delimiter :: after := by
      simp only [split, List.append_assoc]
    have taken := Takes.toWord joined (closed.append closedBefore) begun graphic ends whole word
    rwa [graphicRuns_append closed, List.append_assoc, List.map_append, List.length_append,
      Nat.add_assoc, Nat.add_assoc, ← Nat.add_assoc before.length] at taken

theorem count_le (takes : Takes dictionary text tokens count) : count ≤ text.length := by
  cases takes with
  | toEnd => exact Nat.le_refl _
  | toWord split =>
    simp only [split, List.length_append, List.length_cons, String.length_toList]
    omega

theorem count_pos (takes : Takes dictionary text tokens count) (some : text ≠ []) : 0 < count := by
  cases takes with
  | toEnd => exact List.length_pos_iff.mpr some
  | toWord => omega

/-- The runs of a text are those that are taken off it and those of what is left. -/
theorem graphicRuns_eq (takes : Takes dictionary text tokens count) :
    graphicRuns text = tokens.map Token.text ++ graphicRuns (text.drop count) := by
  cases takes with
  | toEnd => simp [Token.ofText, Function.comp_def]
  | @toWord before after run delimiter split closed begun graphic ends earlier word =>
    have rest : text.drop (before.length + run.length + 1) = after := by
      have parted : text = (before ++ run.toList ++ [delimiter]) ++ after := by simp [split]
      have size : (before ++ run.toList ++ [delimiter]).length = before.length + run.length + 1 := by
        simp only [List.length_append, List.length_singleton, String.length_toList]
      rw [parted, List.drop_left' size]
    rw [rest, split, graphicRuns_append_cons ends, graphicRuns_append closed,
      graphicRuns_of_graphic begun graphic]
    simp [Token.ofText, Function.comp_def]

/-- A token is its run with the kind that the run is taken for. -/
theorem eq_ofText (takes : Takes dictionary text tokens count) :
    ∀ token ∈ tokens, token = Token.ofText dictionary token.text := by
  cases takes <;>
  · intro token member
    obtain ⟨run, _, rfl⟩ := List.mem_map.mp member
    rfl

theorem map_ofText (takes : Takes dictionary text tokens count) :
    (tokens.map Token.text).map (Token.ofText dictionary) = tokens := by
  rw [List.map_map]
  exact List.map_congr_left (fun token member => (takes.eq_ofText token member).symm) |>.trans
    (List.map_id tokens)

/-- Only the last token may be no number. -/
theorem number_of_mem_dropLast (takes : Takes dictionary text tokens count) :
    ∀ token ∈ tokens.dropLast, token.kind = .number := by
  cases takes with
  | toEnd all =>
    intro token member
    obtain ⟨run, present, rfl⟩ := List.mem_map.mp ((List.dropLast_subset _) member)
    exact all run present
  | toWord _ _ _ _ _ earlier =>
    rw [List.map_append, List.map_singleton, List.dropLast_concat]
    intro token member
    obtain ⟨run, present, rfl⟩ := List.mem_map.mp member
    exact earlier run present

/-- What is taken are the numbers in front and the run behind them, if there is one. -/
theorem texts_eq (takes : Takes dictionary text tokens count) :
    tokens.map Token.text =
      (graphicRuns text).takeWhile (TokenKind.classify dictionary · = .number) ++
        ((graphicRuns text).dropWhile (TokenKind.classify dictionary · = .number)).take 1 := by
  cases takes with
  | toEnd all =>
    have numbers : ∀ run ∈ graphicRuns text, decide (TokenKind.classify dictionary run = .number) := by
      simpa using all
    rw [List.takeWhile_eq_self_iff.mpr numbers, List.dropWhile_eq_nil_iff.mpr numbers]
    simp [Token.ofText, Function.comp_def]
  | toWord split closed begun graphic ends earlier word =>
    rw [split, graphicRuns_append_cons ends, graphicRuns_append closed,
      graphicRuns_of_graphic begun graphic, String.ofList_toList, List.append_assoc,
      List.takeWhile_append_of_pos (by simpa using earlier),
      List.dropWhile_append_of_pos (by simpa using earlier)]
    simp [Token.ofText, Function.comp_def, word]

end Takes

section Cutting

variable (dictionary : Dictionary) {pending : List Char} {c : Char} (rest : List Char)

theorem cutFrom_graphic (graphic : isGraphic c = true) :
    cutFrom dictionary pending (c :: rest) = cutFrom dictionary (c :: pending) rest := by
  simp only [cutFrom, graphic, ↓reduceIte]

theorem cutFrom_idle (delimiter : isGraphic c = false) :
    cutFrom dictionary [] (c :: rest) = cut dictionary rest := by
  simp only [cutFrom, cut, delimiter, List.isEmpty_nil, Bool.false_eq_true, ↓reduceIte]

theorem cutFrom_number (delimiter : isGraphic c = false) (begun : pending ≠ [])
    (number : TokenKind.classify dictionary (String.ofList pending.reverse) = .number) :
    cutFrom dictionary pending (c :: rest) =
      ⟨Token.ofText dictionary (String.ofList pending.reverse) :: (cut dictionary rest).tokens,
        (cut dictionary rest).rest⟩ := by
  have some : pending.isEmpty = false := List.isEmpty_eq_false_iff.mpr begun
  simp only [cutFrom, cut, delimiter, some, Token.ofText, number, Bool.false_eq_true, ↓reduceIte]

theorem cutFrom_word (delimiter : isGraphic c = false) (begun : pending ≠ [])
    (word : TokenKind.classify dictionary (String.ofList pending.reverse) ≠ .number) :
    cutFrom dictionary pending (c :: rest) =
      ⟨[Token.ofText dictionary (String.ofList pending.reverse)], rest⟩ := by
  have some : pending.isEmpty = false := List.isEmpty_eq_false_iff.mpr begun
  simp only [cutFrom, delimiter, some, Token.ofText, word, Bool.false_eq_true, ↓reduceIte]

end Cutting

/-- The pending characters are the beginning of the text, and they belong to one run. -/
private theorem takes_cutFrom (dictionary : Dictionary) {pending : List Char}
    (graphic : ∀ c ∈ pending, isGraphic c = true) (text : List Char)
    (closed : Closed (pending.reverse ++ text)) :
    ∃ count, Takes dictionary (pending.reverse ++ text) (cutFrom dictionary pending text).tokens count ∧
      (cutFrom dictionary pending text).rest = (pending.reverse ++ text).drop count := by
  induction text generalizing pending with
  | nil =>
    cases pending with
    | nil => exact ⟨0, .toEnd (by simp), rfl⟩
    | cons c earlier =>
      have delimiter := closed c (by simp)
      rw [graphic c (List.mem_cons_self ..)] at delimiter
      contradiction
  | cons c rest ih =>
    cases kind : isGraphic c with
    | true =>
      have same : pending.reverse ++ c :: rest = (c :: pending).reverse ++ rest := by simp
      rw [cutFrom_graphic dictionary rest kind]
      rw [same] at closed ⊢
      exact ih (by simpa [kind] using graphic) closed
    | false =>
      have ended : Closed (pending.reverse ++ [c]) := closed_concat kind _
      have same : pending.reverse ++ c :: rest = (pending.reverse ++ [c]) ++ rest := by simp
      rw [same] at closed ⊢
      obtain ⟨count, takes, left⟩ : ∃ count, Takes dictionary rest (cut dictionary rest).tokens count ∧
          (cut dictionary rest).rest = rest.drop count := by
        simpa [cut] using @ih [] (by simp) closed.of_append
      have further : ((pending.reverse ++ [c]) ++ rest).drop ((pending.reverse ++ [c]).length + count) =
          rest.drop count := List.drop_length_add_append ..
      by_cases begun : pending = []
      · subst begun
        rw [cutFrom_idle dictionary rest kind]
        have none : graphicRuns ([].reverse ++ [c]) = [] := graphicRuns_cons_delimiter kind []
        have taken := takes.behind ended (by simp only [none, List.not_mem_nil, false_implies, implies_true])
        rw [none] at taken
        exact ⟨_, taken, left.trans further.symm⟩
      · have one : graphicRuns (pending.reverse ++ [c]) = [String.ofList pending.reverse] := by
          rw [graphicRuns_append_cons kind, graphicRuns_nil, List.append_nil,
            graphicRuns_of_graphic (by simpa using begun) (by simpa using graphic)]
        by_cases number : TokenKind.classify dictionary (String.ofList pending.reverse) = .number
        · rw [cutFrom_number dictionary rest kind begun number]
          have taken := takes.behind ended (by simpa [one] using number)
          rw [one] at taken
          exact ⟨_, taken, left.trans further.symm⟩
        · rw [cutFrom_word dictionary rest kind begun number]
          have split : (pending.reverse ++ [c]) ++ rest =
              [] ++ (String.ofList pending.reverse).toList ++ c :: rest := by simp
          have taken := Takes.toWord split closed_nil (by simpa using begun) (by simpa using graphic)
            kind (by simp) number
          refine ⟨_, taken, (List.drop_left' ?_).symm⟩
          simp

/-- Cutting a batch off a closed text takes what a reading takes, and leaves the rest. -/
theorem takes_cut (dictionary : Dictionary) {text : List Char} (closed : Closed text) :
    ∃ count, Takes dictionary text (cut dictionary text).tokens count ∧
      (cut dictionary text).rest = text.drop count :=
  @takes_cutFrom dictionary [] (by simp) text closed

end LineForth.Batch
