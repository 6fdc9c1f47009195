import LineForth.Proofs.Contract
import Mathlib.Tactic.Ring

/-! # Quotients and remainders

The two operations that divide round differently. A quotient is worked out on the sizes of its operands
and given its sign afterwards, so it is rounded toward zero; a remainder is that of rounding down, by the
size of the divisor, so it is never negative. Each is the one number with its properties (`Truncates.unique`,
`remainder_eq`), and they fit together but for the case of a negative number that is no multiple of the
divisor, where they are one divisor apart (`Binary.eval_division`).
-/

namespace LineForth

namespace Number

/-- The quotient of the sizes, rounded down, and negative where just one of the numbers is. -/
def signedQuotient (left right : Int) : Int :=
  let size := Int.fdiv |left| |right|
  if left < 0 ↔ right < 0 then size else -size

/-- A quotient rounded toward zero: its multiple of the divisor does not go beyond the number, and what is
missing is less than the divisor and lies on the side of the number. -/
structure Truncates (left right quotient : Int) : Prop where
  within : |quotient * right| ≤ |left|
  near : |left - quotient * right| < |right|
  side : left - quotient * right = 0 ∨ (left - quotient * right).sign = left.sign

structure Remains (left right remainder : Int) : Prop where
  least : 0 ≤ remainder
  below : remainder < |right|
  divides : right ∣ left - remainder

variable {left right : Int}

theorem signedQuotient_eq (left right : Int) : signedQuotient left right = left.tdiv right := by
  have sizes : Int.fdiv |left| |right| = |left|.tdiv |right| :=
    Int.fdiv_eq_tdiv_of_nonneg (abs_nonneg left) (abs_nonneg right)
  rw [signedQuotient, sizes]
  rcases lt_or_ge left 0 with below | above
  · rcases lt_or_ge right 0 with negative | positive
    · rw [if_pos (iff_of_true below negative), abs_of_neg below, abs_of_neg negative, Int.neg_tdiv,
        Int.tdiv_neg, neg_neg]
    · rw [if_neg (by omega), abs_of_neg below, abs_of_nonneg positive, Int.neg_tdiv, neg_neg]
  · rcases lt_or_ge right 0 with negative | positive
    · rw [if_neg (by omega), abs_of_nonneg above, abs_of_neg negative, Int.tdiv_neg, neg_neg]
    · rw [if_pos (by omega), abs_of_nonneg above, abs_of_nonneg positive]

theorem floorRemainder_eq (left right : Int) : left.fmod |right| = left % right := by
  rw [Int.fmod_eq_emod_of_nonneg left (abs_nonneg right), Int.emod_abs]

/-- What a quotient rounded toward zero leaves. -/
theorem sub_tdiv_mul (left right : Int) : left - left.tdiv right * right = left.tmod right := by
  rw [Int.tmod_def, Int.mul_comm]

theorem truncates_tdiv (nonzero : right ≠ 0) : Truncates left right (left.tdiv right) := by
  refine ⟨?_, ?_, ?_⟩
  · rw [← Int.natCast_natAbs, ← Int.natCast_natAbs, Int.natAbs_mul, Int.natAbs_tdiv]
    exact_mod_cast Nat.div_mul_le_self left.natAbs right.natAbs
  · rw [sub_tdiv_mul, ← Int.natCast_natAbs, ← Int.natCast_natAbs, Int.natAbs_tmod]
    exact_mod_cast Nat.mod_lt _ (Int.natAbs_pos.mpr nonzero)
  · rw [sub_tdiv_mul]
    by_cases multiple : right ∣ left
    · exact .inl (Int.tmod_eq_zero_of_dvd multiple)
    · right
      rw [Int.sign_tmod, if_neg multiple]

/-- What is missing is not beyond zero from the number. -/
theorem Truncates.sameSide {quotient : Int} (truncated : Truncates left right quotient) :
    (0 ≤ left → 0 ≤ left - quotient * right) ∧ (left ≤ 0 → left - quotient * right ≤ 0) := by
  rcases truncated.side with zero | same
  · omega
  · constructor
    · intro above
      rw [← Int.sign_nonneg_iff, same, Int.sign_nonneg_iff]
      exact above
    · intro below
      rw [← Int.sign_nonpos_iff, same, Int.sign_nonpos_iff]
      exact below

/-- There is one quotient rounded toward zero: two that leave something on one side leave the same. -/
theorem Truncates.unique {first second : Int} (truncated : Truncates left right first)
    (other : Truncates left right second) : first = second := by
  have apart : |right| ∣ (left - first * right) - (left - second * right) :=
    (abs_dvd right _).mpr ⟨second - first, by ring⟩
  have near : |(left - first * right) - (left - second * right)| < |right| := by
    have firstNear := abs_lt.mp truncated.near
    have secondNear := abs_lt.mp other.near
    have firstSide := truncated.sameSide
    have secondSide := other.sameSide
    rw [abs_lt]
    rcases le_total 0 left with above | below
    · omega
    · omega
  have same : first * right = second * right := by
    have none := Int.eq_zero_of_abs_lt_dvd apart near
    omega
  have nonzero : right ≠ 0 := by
    rintro rfl
    exact absurd truncated.near (by simp)
  exact mul_right_cancel₀ nonzero same

theorem remains_emod (nonzero : right ≠ 0) : Remains left right (left % right) := by
  refine ⟨Int.emod_nonneg left nonzero, ?_, Int.dvd_self_sub_emod⟩
  rw [← Int.emod_abs]
  exact Int.emod_lt_of_pos left (abs_pos.mpr nonzero)

/-- A quotient of two cells fits a cell but for one pair of them. -/
theorem fitsCell_tdiv_iff (fits : FitsCell left) :
    FitsCell (left.tdiv right) ↔ ¬ (left = leastCell ∧ right = -1) := by
  constructor
  · rintro kept ⟨rfl, rfl⟩
    exact absurd kept (by decide)
  · exact fitsCell_tdiv fits

/-- There is one remainder that is not negative. -/
theorem Remains.unique {first second : Int} (remains : Remains left right first)
    (other : Remains left right second) : first = second := by
  rw [remainder_eq remains.least remains.below remains.divides,
    remainder_eq other.least other.below other.divides]

/-- A remainder by a cell fits a cell. -/
theorem Remains.fitsCell {remainder : Int} (remains : Remains left right remainder)
    (fits : FitsCell right) : FitsCell remainder := by
  have least := remains.least
  have below := remains.below
  rw [← Int.natCast_natAbs] at below
  simp only [FitsCell, leastCell, greatestCell] at fits ⊢
  omega

end Number

open Number

namespace Binary

variable {left right : Int}

theorem eval_div (left : Int) (nonzero : right ≠ 0) :
    div.eval left right = .ok (signedQuotient left right) := by
  rw [eval, if_neg nonzero, signedQuotient_eq]

theorem eval_mod (left : Int) (nonzero : right ≠ 0) :
    mod.eval left right = .ok (left.fmod |right|) := by
  rw [eval, if_neg nonzero, floorRemainder_eq]
  rfl

/-- An operation that divides fails for a divisor of zero and for nothing else. -/
theorem eval_eq_error_iff {function : Binary} (divides : function.Divides) :
    function.eval left right = .error .divisionByZero ↔ right = 0 := by
  constructor
  · intro failed
    by_contra nonzero
    rw [eval_of_sound left fun fault => nonzero fault.2] at failed
    contradiction
  · rintro rfl
    exact eval_of_fault divides left

/-- What the two operations that divide make of any two numbers. They fail for a divisor of zero and for
nothing else. Otherwise the quotient is the one that is rounded toward zero and the remainder the one that
is not negative; they make up the number, less a divisor where it is negative and no multiple. A minus on
either operand goes over to the quotient, and one on the divisor makes no difference to the remainder. Of
the numbers that a cell holds one pair alone has a quotient that no cell holds, and every remainder fits. -/
theorem eval_division (left right : Int) :
    (div.eval left right = .error .divisionByZero ↔ right = 0) ∧
    (mod.eval left right = .error .divisionByZero ↔ right = 0) ∧
    (right ≠ 0 →
      let quotient := signedQuotient left right
      let remainder := left.fmod |right|
      div.eval left right = .ok quotient ∧ mod.eval left right = .ok remainder ∧
      (∀ other, Truncates left right other ↔ other = quotient) ∧
      (∀ other, Remains left right other ↔ other = remainder) ∧
      (0 ≤ left ∨ right ∣ left → left = quotient * right + remainder) ∧
      (¬ (0 ≤ left ∨ right ∣ left) → left = quotient * right + remainder - |right|) ∧
      div.eval (-left) right = .ok (-quotient) ∧ div.eval left (-right) = .ok (-quotient) ∧
      mod.eval left (-right) = .ok remainder ∧
      (FitsCell left → FitsCell right →
        (¬ FitsCell quotient ↔ left = leastCell ∧ right = -1) ∧ FitsCell remainder)) := by
  refine ⟨eval_eq_error_iff (.inl rfl), eval_eq_error_iff (.inr rfl), ?_⟩
  intro nonzero quotient remainder
  have quotientEq : quotient = left.tdiv right := signedQuotient_eq left right
  have remainderEq : remainder = left % right := floorRemainder_eq left right
  have truncates : Truncates left right quotient := quotientEq ▸ truncates_tdiv nonzero
  have remains : Remains left right remainder := remainderEq ▸ remains_emod nonzero
  have together : left - quotient * right =
      remainder - ((if 0 ≤ left ∨ right ∣ left then 0 else right.natAbs : Nat) : Int) := by
    rw [quotientEq, remainderEq, sub_tdiv_mul, Int.tmod_eq_emod]
  refine ⟨eval_div left nonzero, eval_mod left nonzero, fun other => ?_, fun other => ?_, fun whole => ?_,
    fun short => ?_, ?_, ?_, ?_, fun fitsLeft fitsRight => ⟨?_, remains.fitsCell fitsRight⟩⟩
  · exact ⟨fun truncated => truncated.unique truncates, fun same => same ▸ truncates⟩
  · exact ⟨fun other => other.unique remains, fun same => same ▸ remains⟩
  · rw [if_pos whole] at together
    omega
  · rw [if_neg short, Int.natCast_natAbs] at together
    omega
  · rw [eval_div (-left) nonzero, signedQuotient_eq, Int.neg_tdiv, quotientEq]
  · rw [eval_div left (neg_ne_zero.mpr nonzero), signedQuotient_eq, Int.tdiv_neg, quotientEq]
  · rw [eval_mod left (neg_ne_zero.mpr nonzero), abs_neg]
  · rw [quotientEq, fitsCell_tdiv_iff fitsLeft, not_not]

/-- A negative number that is no multiple of its divisor, and the pair of cells whose quotient no cell
holds. -/
theorem eval_division_corners :
    div.eval (-7) 2 = .ok (-3) ∧ mod.eval (-7) 2 = .ok 1 ∧ Truncates (-7) 2 (-3) ∧ Remains (-7) 2 1 ∧
      (-7 : Int) = -3 * 2 + 1 - |2| ∧ div.eval (- -7) 2 = .ok 3 ∧
      FitsCell leastCell ∧ FitsCell (-1) ∧ ¬ FitsCell (signedQuotient leastCell (-1)) := by
  obtain ⟨_, _, whole⟩ := eval_division (-7) 2
  obtain ⟨quotient, remainder, truncates, remains, _, short, minus, _⟩ := whole (by decide)
  obtain ⟨_, _, _, _, _, _, _, _, _, fits⟩ := (eval_division leastCell (-1)).2.2 (by decide)
  refine ⟨quotient, remainder, (truncates _).mpr rfl, (remains _).mpr rfl, short (by decide), minus,
    by decide, by decide, (fits (by decide) (by decide)).1.mpr ⟨rfl, rfl⟩⟩

end Binary

end LineForth
