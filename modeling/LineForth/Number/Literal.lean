import LineForth.Number.TwosComplement
import LineForth.Text.Blank

/-! # Number literals

How a text is read as a number for the data stack. A literal is written in decimal digits, of any
script, in groups that single underscores keep apart; one sign may stand before it and white space
around it. Two limits are on its length: the characters after its leading zeros, and its digits,
leading zeros included. `Literal.read` says which of them, or which fault of form, comes first.
-/

namespace LineForth.Number

/-- The code points of the digits zero of Unicode 14; the digits one to nine follow each of them. -/
def zeroDigits : List Nat :=
  [0x30, 0x660, 0x6F0, 0x7C0, 0x966, 0x9E6, 0xA66, 0xAE6, 0xB66, 0xBE6, 0xC66, 0xCE6, 0xD66, 0xDE6,
   0xE50, 0xED0, 0xF20, 0x1040, 0x1090, 0x17E0, 0x1810, 0x1946, 0x19D0, 0x1A80, 0x1A90, 0x1B50,
   0x1BB0, 0x1C40, 0x1C50, 0xA620, 0xA8D0, 0xA900, 0xA9D0, 0xA9F0, 0xAA50, 0xABF0, 0xFF10, 0x104A0,
   0x10D30, 0x11066, 0x110F0, 0x11136, 0x111D0, 0x112F0, 0x11450, 0x114D0, 0x11650, 0x116C0,
   0x11730, 0x118E0, 0x11950, 0x11C50, 0x11D50, 0x11DA0, 0x16A60, 0x16AC0, 0x16B50, 0x1D7CE,
   0x1D7D8, 0x1D7E2, 0x1D7EC, 0x1D7F6, 0x1E140, 0x1E2F0, 0x1E950, 0x1FBF0]

/-- What a decimal digit of any script counts for. -/
def digitValue? (c : Char) : Option Nat :=
  (zeroDigits.find? fun base => base ≤ c.toNat && c.toNat < base + 10).map (c.toNat - ·)

/-- The value of decimal digits, the first one weighing most. -/
def decimalValue (digits : List Nat) : Nat :=
  digits.foldl (fun value digit => 10 * value + digit) 0

inductive LiteralError
  /-- The number fits in no cell, or its text is too long for one that does. -/
  | outOfRange
  /-- The text holds more digits than a literal may, leading zeros counted. -/
  | tooLong (digits : Nat)
  /-- The text is not of the form of a literal. -/
  | malformed
deriving DecidableEq, Repr

namespace Literal

/-- The most characters that may follow the leading zeros: as many as the greatest cell has. -/
def significantLimit : Nat := 19

def digitLimit : Nat := 4300

/-- The white space that may surround a literal; the information separators are not part of it. -/
def isPadding (c : Char) : Bool :=
  ('\t' ≤ c && c ≤ '\r') || c == ' ' || Text.isWideBlank c

/-- Take the sign off a text: whether it is a minus, and the characters behind it. -/
def splitSign : List Char → Bool × List Char
  | '-' :: rest => (true, rest)
  | '+' :: rest => (false, rest)
  | rest => (false, rest)

def isBody (c : Char) : Bool := (digitValue? c).isSome || c == '_'

/-- The number that a text denotes, whatever its size. Empty groups of digits are refused before
digits are counted, and what follows the digits is looked at last. -/
def parse (text : List Char) : Except LiteralError Int :=
  let signed := splitSign (text.dropWhile isPadding)
  let groups := (signed.2.takeWhile isBody).splitOn '_'
  let digits := groups.flatten
  if groups.any List.isEmpty then .error .malformed
  else if digitLimit < digits.length then .error (.tooLong digits.length)
  else if !(signed.2.dropWhile isBody).all isPadding then .error .malformed
  else
    let magnitude : Int := decimalValue (digits.filterMap digitValue?)
    .ok (if signed.1 then -magnitude else magnitude)

/-- The number that a text puts into a cell. -/
def read (text : String) : Except LiteralError Int :=
  if significantLimit < (text.toList.dropWhile (· == '0')).length then .error .outOfRange
  else
    match parse text.toList with
    | .error cause => .error cause
    | .ok value => if FitsCell value then .ok value else .error .outOfRange

theorem fitsCell_of_read {text : String} {value : Int} (success : read text = .ok value) :
    FitsCell value := by
  unfold read at success
  split at success
  · cases success
  · split at success
    · cases success
    · split at success
      · next fits => cases success; exact fits
      · cases success

end Literal

end LineForth.Number
