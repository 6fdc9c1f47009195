import LineForth.Proofs.Literal

/-! # The exact value of a literal

A text of digits that is not too long is read as its decimal value, or is out of range, however many zeros
lead it. Of the two checks that may refuse it, the one that counts significant digits is right about every
number that it refuses and leaves others to the check of the range, which it does not replace: it lets
pass the numbers of nineteen digits beyond the greatest cell (`Token.readNumber_value`).
-/

namespace LineForth.Number.Literal

/-- The characters of a text behind its leading zeros. -/
def significant (text : String) : List Char := text.toList.dropWhile (· == '0')

/-- The numeral of a number behind some zeros. -/
def padded (zeros value : Nat) : String := String.ofList (List.replicate zeros '0') ++ toString value

theorem toList_padded (zeros value : Nat) :
    (padded zeros value).toList = List.replicate zeros '0' ++ Nat.toDigits 10 value := by
  rw [padded, String.toList_append, String.toList_ofList, toList_numeral]

theorem begun_padded (zeros value : Nat) : (padded zeros value).toList ≠ [] := by
  rw [toList_padded]
  exact List.append_ne_nil_of_right_ne_nil _ Nat.toDigits_ne_nil

theorem isDigit_padded (zeros value : Nat) : ∀ c ∈ (padded zeros value).toList, c.isDigit = true := by
  rw [toList_padded, ← toList_numeral]
  refine List.forall_mem_append.mpr ⟨fun c member => ?_, isDigit_numeral value⟩
  rw [List.eq_of_mem_replicate member]
  rfl

/-- Zeros before a numeral make no difference to its value. -/
theorem ofDigitChars_padded (zeros value : Nat) :
    Nat.ofDigitChars 10 (padded zeros value).toList 0 = value := by
  have bare : (List.replicate zeros '0' ++ Nat.toDigits 10 value).dropWhile (· == '0') =
      (Nat.toDigits 10 value).dropWhile (· == '0') :=
    List.dropWhile_append_of_pos fun c member => by simp [List.eq_of_mem_replicate member]
  rw [toList_padded, ← ofDigitChars_dropWhile_zero, bare, ofDigitChars_dropWhile_zero,
    Nat.ofDigitChars_ten_toDigits]

/-- A text has no more significant digits than digits. -/
theorem length_significant_le (text : String) : (significant text).length ≤ text.length := by
  rw [← String.length_toList]
  exact (List.dropWhile_sublist _).length_le

end LineForth.Number.Literal

namespace LineForth.Token

open Number Literal

/-- Digits of which too many are significant are out of range, however many there are in all. -/
theorem readNumber_of_significant {text : String} (many : significantLimit < (significant text).length) :
    readNumber text = .error (.ofParse (.numberOutOfRange text)) := by
  have refused : read text = .error .outOfRange := if_pos many
  rw [readNumber, refused]

/-- How a text of digits is read. If it is no longer than a literal may be, it is read as its decimal
value where a cell can hold that, and is out of range otherwise. If it has too many significant digits, its
value is out of range and so is the text, at any length. If it is too long for its leading zeros alone, it
is no literal. A number that a cell holds is read from its numeral behind any zeros that keep within the
length; a number beyond the greatest cell is refused though it has no more than nineteen digits. -/
theorem readNumber_value :
    (∀ text : String, text.toList ≠ [] → (∀ c ∈ text.toList, c.isDigit = true) →
      let value : Int := Nat.ofDigitChars 10 text.toList 0
      (text.length ≤ digitLimit →
        (value ≤ greatestCell → readNumber text = .ok value) ∧
        (greatestCell < value → readNumber text = .error (.ofParse (.numberOutOfRange text)))) ∧
      (significantLimit < (significant text).length → greatestCell < value ∧
        readNumber text = .error (.ofParse (.numberOutOfRange text))) ∧
      (digitLimit < text.length → (significant text).length ≤ significantLimit →
        readNumber text = .error (.defect (.tooManyDigits text.length)))) ∧
    (∀ zeros value : Nat, value ≤ greatestCell → (padded zeros value).length ≤ digitLimit →
      readNumber (padded zeros value) = .ok value) ∧
    ∀ value : Nat, greatestCell < value → value < Nat.pow 10 significantLimit →
      (significant (toString value)).length ≤ significantLimit ∧
      readNumber (toString value) = .error (.ofParse (.numberOutOfRange (toString value))) := by
  refine ⟨fun text begun digits => ⟨fun short => ⟨fun fits => ?_, fun beyond => ?_⟩,
      fun many => ⟨?_, ?_⟩, fun long few => ?_⟩,
    fun zeros value fits short => ?_, fun value beyond few => ⟨?_, ?_⟩⟩
  · rw [readNumber_of_isDigit begun digits (not_overlong_of_length_le short), if_pos fits]
  · rw [readNumber_of_isDigit begun digits (not_overlong_of_length_le short), if_neg (Int.not_le.mpr beyond)]
  · exact lt_ofDigitChars_of_significant digits many
  · exact readNumber_of_significant many
  · exact readNumber_of_overlong ⟨digits, long, few⟩
  · rw [readNumber_of_isDigit (begun_padded zeros value) (isDigit_padded zeros value)
      (not_overlong_of_length_le short), ofDigitChars_padded, if_pos fits]
  · exact Nat.le_trans (length_significant_le _) (length_numeral_le few)
  · have short := not_overlong_of_length_le (Nat.le_trans (length_numeral_le few) (by decide))
    rw [readNumber_of_isDigit (begun_numeral value) (isDigit_numeral value) short, toList_numeral,
      Nat.ofDigitChars_ten_toDigits, if_neg (Int.not_le.mpr beyond)]

/-- The greatest cell behind a zero, and the number after it, whose nineteen digits pass the guard. -/
theorem readNumber_value_limits :
    readNumber "09223372036854775807" = .ok greatestCell ∧
      readNumber (padded 3 greatestCell.toNat) = .ok greatestCell ∧
      (significant (toString 9223372036854775808)).length ≤ significantLimit ∧
      readNumber (toString 9223372036854775808) =
        .error (.ofParse (.numberOutOfRange (toString 9223372036854775808))) := by
  obtain ⟨texts, numerals, beyond⟩ := readNumber_value
  obtain ⟨inside, _, _⟩ := texts "09223372036854775807" (by decide) (List.all_eq_true.mp (by decide))
  obtain ⟨passed, refused⟩ := beyond 9223372036854775808 (by decide) (by decide)
  exact ⟨(inside (by decide)).1 (by decide), numerals 3 greatestCell.toNat (by decide) (by decide), passed,
    refused⟩

end LineForth.Token
