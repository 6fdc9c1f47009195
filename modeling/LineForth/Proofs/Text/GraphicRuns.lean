import LineForth.Text.Graphic

/-! # Runs of graphic characters

The maximal runs of graphic characters of a text, as the pieces that are left when it is split at
every other character. They say what a line holds without saying how it is read; the readers of
lines are compared with them. A closed text ends in a delimiter and leaves no run open, so the runs
of what stands behind it are not mixed up with its own (`graphicRuns_append`).
-/

namespace LineForth.Text

/-- What keeps runs of graphic characters apart. -/
def isDelimiter (c : Char) : Bool := !isGraphic c

/-- The maximal runs of graphic characters of a text, in order. -/
def graphicRuns (text : List Char) : List String :=
  ((text.splitOnP isDelimiter).filter (!·.isEmpty)).map String.ofList

/-- A text that leaves no run of graphic characters open at its end. -/
def Closed (text : List Char) : Prop := ∀ c ∈ text.getLast?, isGraphic c = false

theorem closed_iff (text : List Char) : Closed text ↔ text.getLast?.any isGraphic = false := by
  cases last : text.getLast? <;> simp [Closed, last]

instance (text : List Char) : Decidable (Closed text) :=
  decidable_of_iff _ (closed_iff text).symm

@[simp] theorem graphicRuns_nil : graphicRuns [] = [] := rfl

/-- A delimiter parts the runs before it from those behind it. -/
theorem graphicRuns_append_cons {c : Char} (delimiter : isGraphic c = false)
    (front back : List Char) :
    graphicRuns (front ++ c :: back) = graphicRuns front ++ graphicRuns back := by
  simp only [graphicRuns]
  rw [List.splitOnP_append_cons front back (by simp [isDelimiter, delimiter]), List.filter_append,
    List.map_append]

theorem graphicRuns_cons_delimiter {c : Char} (delimiter : isGraphic c = false) (rest : List Char) :
    graphicRuns (c :: rest) = graphicRuns rest :=
  graphicRuns_append_cons delimiter [] rest

/-- Graphic characters alone are one run. -/
theorem graphicRuns_of_graphic {text : List Char} (begun : text ≠ [])
    (graphic : ∀ c ∈ text, isGraphic c = true) : graphicRuns text = [String.ofList text] := by
  simp only [graphicRuns]
  rw [List.splitOnP_eq_singleton (by simpa [isDelimiter] using graphic),
    List.filter_cons_of_pos (by simpa using begun)]
  rfl

private theorem graphic_of_mem_piece {pending : List Char}
    (graphic : ∀ c ∈ pending, isGraphic c = true) (text : List Char) :
    ∀ piece ∈ text.splitOnPPrepend isDelimiter pending, ∀ c ∈ piece, isGraphic c = true := by
  induction text generalizing pending with
  | nil => simpa using graphic
  | cons first rest ih =>
    rw [List.splitOnPPrepend_cons_eq_if]
    split
    · intro piece member
      rcases List.mem_cons.mp member with rfl | member
      · simpa using graphic
      · exact @ih [] (by simp) piece member
    · next inside =>
      have kind : isGraphic first = true := by simpa [isDelimiter] using inside
      exact ih (by simpa [kind] using graphic)

/-- A run has characters, all of them graphic. -/
theorem graphic_of_mem_graphicRuns {text : List Char} {run : String} (member : run ∈ graphicRuns text) :
    run.toList ≠ [] ∧ ∀ c ∈ run.toList, isGraphic c = true := by
  obtain ⟨piece, kept, rfl⟩ := List.mem_map.mp member
  obtain ⟨cut, begun⟩ := List.mem_filter.mp kept
  rw [String.toList_ofList]
  exact ⟨by simpa using begun, graphic_of_mem_piece (by simp) text piece cut⟩

theorem begun_of_mem_graphicRuns {text : List Char} : ∀ run ∈ graphicRuns text, run.toList ≠ [] := by
  intro run member
  exact (graphic_of_mem_graphicRuns member).1

/-- A text of digits alone is one run. -/
theorem graphicRuns_of_isDigit {text : String} (begun : text.toList ≠ [])
    (digits : ∀ c ∈ text.toList, c.isDigit = true) : graphicRuns text.toList = [text] := by
  rw [graphicRuns_of_graphic begun (fun c member => isGraphic_of_isDigit (digits c member)),
    String.ofList_toList]

theorem closed_nil : Closed [] := by simp [Closed]

theorem closed_concat {c : Char} (delimiter : isGraphic c = false) (text : List Char) :
    Closed (text ++ [c]) := by
  simpa [Closed] using delimiter

/-- What is left behind any part of a closed text is closed. -/
theorem Closed.of_append {front back : List Char} (closed : Closed (front ++ back)) : Closed back := by
  intro c last
  exact closed c (by rw [List.getLast?_append, Option.mem_def.mp last]; rfl)

theorem Closed.drop {text : List Char} (closed : Closed text) (count : Nat) : Closed (text.drop count) := by
  rw [← List.take_append_drop count text] at closed
  exact closed.of_append

theorem Closed.append {front back : List Char} (first : Closed front) (second : Closed back) :
    Closed (front ++ back) := by
  intro c last
  rcases List.eq_nil_or_concat back with rfl | ⟨rest, final, rfl⟩
  · exact first c (by simpa using last)
  · exact second c (by simpa using last)

/-- The runs of a text behind a closed one come after its own. -/
theorem graphicRuns_append {front : List Char} (closed : Closed front) (back : List Char) :
    graphicRuns (front ++ back) = graphicRuns front ++ graphicRuns back := by
  rcases List.eq_nil_or_concat front with rfl | ⟨rest, final, rfl⟩
  · simp
  · have delimiter : isGraphic final = false := closed final (by simp)
    rw [List.concat_eq_append, List.append_assoc, List.singleton_append,
      graphicRuns_append_cons delimiter, graphicRuns_append_cons delimiter]
    simp

/-- The terminator of a line ends its last run and changes no other. -/
theorem graphicRuns_terminated (line : String) :
    graphicRuns (line ++ "\n").toList = graphicRuns line.toList := by
  rw [String.toList_append, show "\n".toList = ['\n'] from rfl,
    graphicRuns_append_cons (by decide), graphicRuns_nil, List.append_nil]

theorem toList_intercalate_cons (word : String) {rest : List String} (more : rest ≠ []) :
    (" ".intercalate (word :: rest)).toList = word.toList ++ ' ' :: (" ".intercalate rest).toList := by
  rw [String.intercalate_cons_of_ne_nil more, String.append_assoc, String.toList_append,
    String.toList_append]
  rfl

section

variable {words : List String}
  (graphic : ∀ word ∈ words, word.toList ≠ [] ∧ ∀ c ∈ word.toList, isGraphic c = true)

include graphic

/-- Graphic words with blanks between them are the runs of the text. -/
theorem graphicRuns_intercalate : graphicRuns (" ".intercalate words).toList = words := by
  induction words with
  | nil => rfl
  | cons word rest ih =>
    obtain ⟨⟨begun, visible⟩, later⟩ := List.forall_mem_cons.mp graphic
    have first : graphicRuns word.toList = [word] := by
      rw [graphicRuns_of_graphic begun visible, String.ofList_toList]
    by_cases more : rest = []
    · subst more
      rw [String.intercalate_singleton, first]
    · rw [toList_intercalate_cons word more, graphicRuns_append_cons (by decide), first, ih later]
      rfl

theorem isAscii_intercalate : ∀ c ∈ (" ".intercalate words).toList, isAscii c = true := by
  induction words with
  | nil => exact List.forall_mem_nil _
  | cons word rest ih =>
    obtain ⟨⟨_, visible⟩, later⟩ := List.forall_mem_cons.mp graphic
    have first : ∀ c ∈ word.toList, isAscii c = true :=
      fun c member => isAscii_of_isGraphic (visible c member)
    by_cases more : rest = []
    · subst more
      rwa [String.intercalate_singleton]
    · rw [toList_intercalate_cons word more]
      exact List.forall_mem_append.mpr ⟨first, List.forall_mem_cons.mpr ⟨rfl, ih later⟩⟩

end

end LineForth.Text
