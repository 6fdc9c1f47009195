import LineForth.Token.Meaning
import Mathlib.Data.List.Basic
import Mathlib.Data.List.TakeWhile

/-! # Literals of plain digits

A text of the ten ASCII digits alone is the only literal that a line can hold. It is read as its
decimal value when a cell can hold that, and it is out of range otherwise. The limit on significant
digits cuts off no number that fits (`lt_ofDigitChars_of_significant`); the limit on all digits does,
since leading zeros count toward it, and the texts that it refuses are the overlong ones.
-/

namespace LineForth.Number

/-- What holds of each of the ten digits holds of every digit. -/
theorem forall_isDigit {P : Char → Prop} (each : ∀ digit < 10, P (Char.ofNat (48 + digit))) {c : Char}
    (digit : c.isDigit = true) : P c := by
  obtain ⟨least, greatest⟩ := Char.isDigit_iff_toNat.mp digit
  change 48 ≤ c.toNat at least
  change c.toNat ≤ 57 at greatest
  have shifted := each (c.toNat - 48) (by omega)
  rwa [Nat.add_sub_cancel' least, Char.ofNat_toNat] at shifted

theorem digitValue?_of_isDigit {c : Char} (digit : c.isDigit = true) :
    digitValue? c = some (c.toNat - '0'.toNat) := by
  exact forall_isDigit (P := fun c => digitValue? c = some (c.toNat - '0'.toNat)) (by decide) digit

namespace Literal

variable {text : List Char}

theorem isPadding_of_isDigit {c : Char} (digit : c.isDigit = true) : isPadding c = false := by
  exact forall_isDigit (P := fun c => isPadding c = false) (by decide) digit

theorem isBody_of_isDigit {c : Char} (digit : c.isDigit = true) : isBody c = true := by
  simp [isBody, digitValue?_of_isDigit digit]

theorem splitSign_of_isDigit (digits : ∀ c ∈ text, c.isDigit = true) :
    splitSign text = (false, text) := by
  unfold splitSign
  split
  · exact absurd (digits '-' (by simp)) (by decide)
  · exact absurd (digits '+' (by simp)) (by decide)
  · rfl

theorem decimalValue_filterMap (digits : ∀ c ∈ text, c.isDigit = true) :
    decimalValue (text.filterMap digitValue?) = Nat.ofDigitChars 10 text 0 := by
  have values : text.filterMap digitValue? = text.map (fun c => c.toNat - '0'.toNat) := by
    rw [← List.filterMap_eq_map]
    exact List.filterMap_congr (fun c member => digitValue?_of_isDigit (digits c member))
  rw [values, decimalValue, List.foldl_map, Nat.ofDigitChars_eq_foldl]

/-- Plain digits denote their decimal value, unless there are too many of them. -/
theorem parse_of_isDigit (begun : text ≠ []) (digits : ∀ c ∈ text, c.isDigit = true) :
    parse text = if digitLimit < text.length then .error (.tooLong text.length)
      else .ok (Nat.ofDigitChars 10 text 0) := by
  have bare : text.dropWhile isPadding = text := by
    cases text with
    | nil => rfl
    | cons c rest =>
      rw [List.dropWhile_cons_of_neg]
      simp [isPadding_of_isDigit (digits c (List.mem_cons_self ..))]
  have body : text.takeWhile isBody = text :=
    List.takeWhile_eq_self_iff.mpr (fun c member => isBody_of_isDigit (digits c member))
  have nothing : text.dropWhile isBody = [] :=
    List.dropWhile_eq_nil_iff.mpr (fun c member => isBody_of_isDigit (digits c member))
  have group : text.splitOn '_' = [text] :=
    List.splitOn_eq_singleton (fun member => absurd (digits '_' member) (by decide))
  simp only [parse, bare, splitSign_of_isDigit digits, body, nothing, group, List.flatten_singleton,
    List.any_cons, List.any_nil, Bool.or_false, List.isEmpty_eq_false_iff.mpr begun, List.all_nil,
    Bool.not_true, decimalValue_filterMap digits, Bool.false_eq_true, ↓reduceIte]

/-- Leading zeros are worth nothing. -/
theorem ofDigitChars_dropWhile_zero (text : List Char) :
    Nat.ofDigitChars 10 (text.dropWhile (· == '0')) 0 = Nat.ofDigitChars 10 text 0 := by
  induction text with
  | nil => rfl
  | cons c rest ih =>
    by_cases zero : c = '0'
    · subst zero
      rw [List.dropWhile_cons_of_pos (by decide), ih, Nat.ofDigitChars_cons, Nat.mul_zero,
        Nat.sub_self]
    · rw [List.dropWhile_cons_of_neg (by simpa using zero)]

/-- A number with more significant digits than the greatest cell is greater. -/
theorem lt_ofDigitChars_of_significant (digits : ∀ c ∈ text, c.isDigit = true)
    (many : significantLimit < (text.dropWhile (· == '0')).length) :
    greatestCell < Nat.ofDigitChars 10 text 0 := by
  rw [← ofDigitChars_dropWhile_zero]
  have first : ∀ c ∈ (text.dropWhile (· == '0')).head?, c ≠ '0' := by
    intro c head
    have stopped := List.head?_dropWhile_not (· == '0') text
    rw [Option.mem_def.mp head] at stopped
    simpa using stopped
  have kept : ∀ c ∈ text.dropWhile (· == '0'), c.isDigit = true :=
    fun c member => digits c ((List.dropWhile_sublist _).subset member)
  generalize text.dropWhile (· == '0') = significant at many first kept ⊢
  cases significant with
  | nil => contradiction
  | cons c rest =>
    have positive : 1 ≤ c.toNat - '0'.toNat :=
      forall_isDigit (P := fun c => c ≠ '0' → 1 ≤ c.toNat - '0'.toNat) (by decide)
        (kept c (List.mem_cons_self ..)) (first c rfl)
    have long : significantLimit ≤ rest.length := Nat.lt_succ_iff.mp many
    have power : 10 ^ significantLimit ≤ 10 ^ rest.length := Nat.pow_le_pow_right (by decide) long
    have scaled : 10 ^ significantLimit * 1 ≤ 10 ^ rest.length * (c.toNat - '0'.toNat) :=
      Nat.mul_le_mul power positive
    rw [Nat.ofDigitChars_cons, Nat.mul_zero, Nat.zero_add, Nat.ofDigitChars_eq_ofDigitChars_zero]
    have limit : greatestCell < (10 ^ significantLimit * 1 : Nat) := by decide
    omega

/-- The texts of plain digits that are too long to be read and yet not out of range, since all but a
few of their digits are leading zeros. -/
structure Overlong (text : String) : Prop where
  digits : ∀ c ∈ text.toList, c.isDigit = true
  long : digitLimit < text.length
  few : (text.toList.dropWhile (· == '0')).length ≤ significantLimit

theorem Overlong.begun {text : String} (overlong : Overlong text) : text.toList ≠ [] := by
  intro empty
  have long := overlong.long
  rw [← String.length_toList, empty] at long
  contradiction

theorem not_overlong_of_length_le {text : String} (short : text.length ≤ digitLimit) : ¬ Overlong text :=
  fun overlong => Nat.not_lt.mpr short overlong.long

theorem read_of_overlong {text : String} (overlong : Overlong text) :
    read text = .error (.tooLong text.length) := by
  have refused : parse text.toList = .error (.tooLong text.length) := by
    rw [parse_of_isDigit overlong.begun overlong.digits, String.length_toList, if_pos overlong.long]
  rw [read, if_neg (Nat.not_lt.mpr overlong.few), refused]

/-- Any other text of plain digits is read as its decimal value or is out of range. -/
theorem read_of_isDigit {text : String} (begun : text.toList ≠ [])
    (digits : ∀ c ∈ text.toList, c.isDigit = true) (readable : ¬ Overlong text) :
    read text = if (Nat.ofDigitChars 10 text.toList 0 : Int) ≤ greatestCell
      then .ok (Nat.ofDigitChars 10 text.toList 0) else .error .outOfRange := by
  by_cases many : significantLimit < (text.toList.dropWhile (· == '0')).length
  · have great := lt_ofDigitChars_of_significant digits many
    rw [read, if_pos many, if_neg (Int.not_le.mpr great)]
  · have short : ¬ digitLimit < text.length :=
      fun long => readable ⟨digits, long, Nat.not_lt.mp many⟩
    have natural : leastCell ≤ (Nat.ofDigitChars 10 text.toList 0 : Int) :=
      Int.le_trans (by decide) (Int.natCast_nonneg _)
    rw [read, if_neg many, parse_of_isDigit begun digits, String.length_toList, if_neg short]
    simp only [FitsCell, natural, true_and]

end Literal

/-- The decimal digits of a number. -/
theorem toList_numeral (value : Nat) : (toString value).toList = Nat.toDigits 10 value := by
  rw [Nat.toString_eq_repr, Nat.toList_repr]

theorem begun_numeral (value : Nat) : (toString value).toList ≠ [] := by
  rw [toList_numeral]
  exact Nat.toDigits_ne_nil

theorem isDigit_numeral (value : Nat) : ∀ c ∈ (toString value).toList, c.isDigit = true := by
  rw [toList_numeral]
  exact fun c member => Nat.isDigit_of_mem_toDigits (by decide) (by decide) member

/-- A number with few significant digits has few digits in all. -/
theorem length_numeral_le {value : Nat} (few : value < Nat.pow 10 Literal.significantLimit) :
    (toString value).length ≤ Literal.significantLimit := by
  rw [← String.length_toList, toList_numeral]
  exact (Nat.length_toDigits_le_iff (by decide) (by decide)).mpr few

theorem graphic_numeral (value : Nat) :
    (toString value).toList ≠ [] ∧ ∀ c ∈ (toString value).toList, Text.isGraphic c = true :=
  ⟨begun_numeral value, fun c member => Text.isGraphic_of_isDigit (isDigit_numeral value c member)⟩

end LineForth.Number

namespace LineForth.Token

open Number Literal

theorem readNumber_of_overlong {text : String} (overlong : Overlong text) :
    readNumber text = .error (.defect (.tooManyDigits text.length)) := by
  rw [readNumber, read_of_overlong overlong]

theorem readNumber_of_isDigit {text : String} (begun : text.toList ≠ [])
    (digits : ∀ c ∈ text.toList, c.isDigit = true) (readable : ¬ Overlong text) :
    readNumber text = if (Nat.ofDigitChars 10 text.toList 0 : Int) ≤ greatestCell
      then .ok (Nat.ofDigitChars 10 text.toList 0)
      else .error (.ofParse (.numberOutOfRange text)) := by
  rw [readNumber, read_of_isDigit begun digits readable]
  by_cases fits : (Nat.ofDigitChars 10 text.toList 0 : Int) ≤ greatestCell
  · rw [if_pos fits, if_pos fits]
  · rw [if_neg fits, if_neg fits]

/-- Digits are refused when they are out of range, or when they are overlong, for no other reason. -/
theorem readNumber_error {text : String} (begun : text.toList ≠ [])
    (digits : ∀ c ∈ text.toList, c.isDigit = true) {cause : Halt}
    (refused : readNumber text = .error cause) :
    cause = .ofParse (.numberOutOfRange text) ∨
      Overlong text ∧ cause = .defect (.tooManyDigits text.length) := by
  by_cases overlong : Overlong text
  · rw [readNumber_of_overlong overlong] at refused
    cases refused
    exact .inr ⟨overlong, rfl⟩
  · rw [readNumber_of_isDigit begun digits overlong] at refused
    split at refused
    · contradiction
    · cases refused
      exact .inl rfl

/-- A number that a cell holds is read back from its decimal digits. -/
theorem readNumber_numeral {value : Nat} (fits : value ≤ greatestCell) :
    readNumber (toString value) = .ok value := by
  have few : value < Nat.pow 10 significantLimit := by
    have limit : greatestCell < Nat.pow 10 significantLimit := by decide
    omega
  have short := not_overlong_of_length_le (Nat.le_trans (length_numeral_le few) (by decide))
  rw [readNumber_of_isDigit (begun_numeral value) (isDigit_numeral value) short, toList_numeral,
    Nat.ofDigitChars_ten_toDigits, if_pos fits]

end LineForth.Token
