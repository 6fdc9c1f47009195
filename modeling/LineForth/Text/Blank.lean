/-! # Blank text

White space in the sense of Unicode: the characters with the property `White_Space`, and the four
information separators U+001C to U+001F. A line made of them alone asks for nothing.
-/

namespace LineForth.Text

/-- The white space of ASCII: horizontal tab to carriage return, the separators, the space. -/
def isAsciiBlank (c : Char) : Bool :=
  let code := c.toNat
  (0x09 ≤ code && code ≤ 0x0D) || (0x1C ≤ code && code ≤ 0x20)

def isWideBlank (c : Char) : Bool :=
  let code := c.toNat
  code == 0x85 || code == 0xA0 || code == 0x1680 || (0x2000 ≤ code && code ≤ 0x200A) ||
    code == 0x2028 || code == 0x2029 || code == 0x202F || code == 0x205F || code == 0x3000

def isBlank (c : Char) : Bool := isAsciiBlank c || isWideBlank c

/-- A text is blank when it holds nothing but white space; the empty text is blank. -/
def isBlankText (text : String) : Bool := text.toList.all isBlank

end LineForth.Text
