import LineForth.Text.Graphic
import LineForth.Text.Printable

/-! # Quoted text

A text inside quotes on one line. The quotes are single, unless the text holds a single quote and
no double one. A backslash stands before the chosen quote and before a backslash; tab, line feed
and carriage return have a letter, and any other character that cannot be printed is written as its
code point in two, four or eight lower-case hexadecimal digits, whichever is the first to hold it.
-/

namespace LineForth.Text.Quoted

/-- The double quote where the text holds only single ones, and the single quote otherwise. -/
def quoteFor (text : List Char) : Char :=
  if text.contains '\x27' && !text.contains '\x22' then '\x22' else '\x27'

/-- A number in exactly the given count of lower-case hexadecimal digits, leading digits dropped. -/
def hexDigits : Nat → Nat → List Char
  | 0, _ => []
  | width + 1, value => hexDigits width (value / 16) ++ [Nat.digitChar (value % 16)]

/-- The escape of a code point: its digits behind a letter that tells how many there are. -/
def escapeCode (code : Nat) : List Char :=
  if code < 0x100 then '\\' :: 'x' :: hexDigits 2 code
  else if code < 0x10000 then '\\' :: 'u' :: hexDigits 4 code
  else '\\' :: 'U' :: hexDigits 8 code

/-- One character of a text as it stands between the quotes. -/
def encodeChar (quote c : Char) : List Char :=
  if c = quote || c = '\\' then ['\\', c]
  else if c = '\t' then ['\\', 't']
  else if c = '\n' then ['\\', 'n']
  else if c = '\r' then ['\\', 'r']
  else if isPrintable c then [c]
  else escapeCode c.toNat

/-- The characters of a quoted text, quotes included. -/
def encodeChars (text : List Char) : List Char :=
  let quote := quoteFor text
  quote :: (text.flatMap (encodeChar quote) ++ [quote])

def encode (text : String) : String := String.ofList (encodeChars text.toList)

end LineForth.Text.Quoted
