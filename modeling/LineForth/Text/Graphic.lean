/-! # Graphic characters

A line is read as words and numbers written in graphic characters, the visible part of ASCII. Every
other ASCII character, blanks and control codes alike, only keeps them apart.
-/

namespace LineForth.Text

def isAscii (c : Char) : Bool := c.val < 128

/-- The visible characters of ASCII, from the exclamation mark to the tilde. -/
def isGraphic (c : Char) : Bool := '!' ≤ c && c ≤ '~'

theorem isAscii_of_isGraphic {c : Char} (graphic : isGraphic c = true) : isAscii c = true := by
  simp only [isGraphic, Bool.and_eq_true, decide_eq_true_eq, Char.le_def] at graphic
  simp only [isAscii, decide_eq_true_eq]
  exact UInt32.lt_of_le_of_lt graphic.2 (by decide)

theorem isGraphic_of_isDigit {c : Char} (digit : c.isDigit = true) : isGraphic c = true := by
  simp only [Char.isDigit, Bool.and_eq_true, decide_eq_true_eq] at digit
  simp only [isGraphic, Bool.and_eq_true, decide_eq_true_eq, Char.le_def]
  exact ⟨UInt32.le_trans (by decide) digit.1, UInt32.le_trans digit.2 (by decide)⟩

end LineForth.Text
