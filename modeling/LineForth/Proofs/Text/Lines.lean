import LineForth.Program

/-! # The lines of a text

What the lines of a text are, said without a way to find them: each ends at a newline and holds none, and
a last one may do without its newline if it is not empty. A text has one list of lines, and it is the
program that finds it (`lines_iff`).
-/

namespace LineForth.Text

/-- These are the lines of the text. -/
inductive Lines : List Char → List (List Char) → Prop
  | none : Lines [] []
  | terminated {line text : List Char} {later : List (List Char)} :
      '\n' ∉ line → Lines text later → Lines (line ++ '\n' :: text) (line :: later)
  | unterminated {line : List Char} : '\n' ∉ line → line ≠ [] → Lines line [line]

variable {line : List Char}

theorem program_lines_terminated (whole : '\n' ∉ line) (text : List Char) :
    Program.lines (line ++ '\n' :: text) = line :: Program.lines text := by
  have begun := List.splitOn_ne_nil '\n' text
  have pieces : (line ++ '\n' :: text).splitOn '\n' = line :: text.splitOn '\n' := by
    rw [List.splitOn_append_cons_self, List.splitOn_eq_singleton whole, List.singleton_append]
  simp only [Program.lines, pieces]
  rw [List.getLast?_cons_of_ne_nil begun, List.dropLast_cons_of_ne_nil begun]
  split <;> rfl

theorem program_lines_unterminated (whole : '\n' ∉ line) (begun : line ≠ []) :
    Program.lines line = [line] := by
  simp only [Program.lines, List.splitOn_eq_singleton whole, List.getLast?_singleton]
  rw [if_neg fun empty => begun (Option.some.inj empty)]

theorem lines_program (text : List Char) : Lines text (Program.lines text) := by
  by_cases parted : '\n' ∈ text
  · obtain ⟨line, rest, rfl, whole⟩ := List.eq_append_cons_of_mem parted
    rw [program_lines_terminated whole]
    exact .terminated whole (lines_program rest)
  · by_cases begun : text = []
    · rw [begun]
      exact .none
    · rw [program_lines_unterminated parted begun]
      exact .unterminated parted begun
termination_by text.length
decreasing_by
  subst_vars
  simp only [List.length_append, List.length_cons]
  omega

/-- The lines of a text are those that the program finds. -/
theorem lines_iff {text : List Char} {lines : List (List Char)} :
    Lines text lines ↔ lines = Program.lines text := by
  constructor
  · intro found
    induction found with
    | none => rfl
    | terminated whole _ ih => rw [program_lines_terminated whole, ih]
    | unterminated whole begun => rw [program_lines_unterminated whole begun]
  · rintro rfl
    exact lines_program text

example : Program.lines "DUP\r\n\n BYE".toList = ["DUP\r".toList, [], " BYE".toList] := by decide

end LineForth.Text
