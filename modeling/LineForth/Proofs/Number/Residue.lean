import LineForth.Number.TwosComplement
import Mathlib.Data.Int.Bitwise
import Mathlib.Tactic.Ring

/-! # Residues and bits

The signed residue of a number is what its lowest bits say when the highest of them counts negatively,
a negative number having infinitely many ones on its left (`signedResidue_eq_maskedResidue`). Sums,
differences, products and negatives may be reduced at any time: what is reduced along the way makes no
difference to the residue of the result.
-/

namespace LineForth.Number

/-- The bits below the sign bit of a register, less the sign bit, taken out of a number by masks. -/
def maskedResidue (bits : Nat) (value : Int) : Int :=
  let signBit : Nat := 2 ^ (bits - 1)
  Int.land value (signBit - 1 : Nat) - Int.land value signBit

section Masks

variable (value : Int) (position : Nat)

private theorem ldiff_two_pow_sub_one (number : Nat) :
    Nat.ldiff (2 ^ position - 1) number = 2 ^ position - (number % 2 ^ position + 1) := by
  apply Nat.eq_of_testBit_eq
  intro bit
  rw [Nat.testBit_ldiff, Nat.testBit_two_pow_sub_one,
    Nat.testBit_two_pow_sub_succ (Nat.mod_lt _ (Nat.two_pow_pos position)), Nat.testBit_mod_two_pow]
  cases decide (bit < position) <;> rfl

private theorem ldiff_two_pow (number : Nat) :
    Nat.ldiff (2 ^ position) number = 2 ^ position * (1 - number / 2 ^ position % 2) := by
  rw [← Nat.toNat_testBit]
  apply Nat.eq_of_testBit_eq
  intro bit
  rw [Nat.testBit_ldiff, Nat.testBit_two_pow]
  by_cases same : position = bit
  · subst same
    cases number.testBit position <;> simp
  · cases number.testBit position <;> simp [same]

/-- The bits below a position are the remainder by its power of two. -/
theorem land_two_pow_sub_one : Int.land value (2 ^ position - 1 : Nat) = value % (2 ^ position : Nat) := by
  cases value with
  | ofNat number =>
    change ((number &&& (2 ^ position - 1) : Nat) : Int) = _
    rw [Nat.and_two_pow_sub_one_eq_mod]
    rfl
  | negSucc number =>
    have small : number % 2 ^ position < 2 ^ position := Nat.mod_lt _ (Nat.two_pow_pos position)
    change ((Nat.ldiff (2 ^ position - 1) number : Nat) : Int) = _
    rw [ldiff_two_pow_sub_one, Int.negSucc_emod _ (by exact_mod_cast Nat.two_pow_pos position),
      ← Int.natCast_mod]
    omega

/-- The bit at a position is the parity of the quotient by its power of two. -/
theorem land_two_pow :
    Int.land value (2 ^ position : Nat) = (2 ^ position : Nat) * (value / (2 ^ position : Nat) % 2) := by
  cases value with
  | ofNat number =>
    change ((number &&& 2 ^ position : Nat) : Int) = _
    rw [Nat.and_two_pow, Nat.toNat_testBit, Nat.mul_comm]
    rfl
  | negSucc number =>
    have quotient : Int.negSucc number / (2 ^ position : Nat) = -((number / 2 ^ position : Nat) + 1) :=
      Int.negSucc_ediv number (by exact_mod_cast Nat.two_pow_pos position)
    change ((Nat.ldiff (2 ^ position) number : Nat) : Int) = _
    rw [ldiff_two_pow, quotient, Int.natCast_mul]
    congr 1
    omega

end Masks

/-- The masks give the signed residue in a register of any width. -/
theorem signedResidue_eq_maskedResidue {bits : Nat} (positive : 0 < bits) (value : Int) :
    signedResidue bits value = maskedResidue bits value := by
  obtain ⟨position, rfl⟩ : ∃ position, bits = position + 1 := ⟨bits - 1, by omega⟩
  simp only [maskedResidue, Nat.add_sub_cancel, land_two_pow_sub_one, land_two_pow]
  have half : 0 < 2 ^ position := Nat.two_pow_pos position
  have range : Nat.pow 2 (position + 1) = 2 ^ position * 2 := rfl
  rw [signedResidue, range]
  generalize 2 ^ position = weight at half ⊢
  -- The number differs from what the masks leave of it by a multiple of the range.
  have parts := Int.mul_ediv_add_emod value weight
  have low := Int.emod_nonneg value (b := weight) (by omega)
  have high := Int.emod_lt_of_pos value (b := weight) (by omega)
  generalize value % weight = remainder at parts low high ⊢
  generalize value / weight = quotient at parts ⊢
  have whole : value = remainder - weight * (quotient % 2) +
      (weight * 2 : Nat) * (quotient / 2 + quotient % 2) := by
    rw [← parts, Int.natCast_mul]
    nth_rewrite 1 [← Int.mul_ediv_add_emod quotient 2]
    push_cast
    ring
  rw [whole, Int.add_mul_bmod_self_left]
  rcases Int.emod_two_eq_zero_or_one quotient with even | odd
  · rw [even]
    exact Int.bmod_eq_of_le (by omega) (by omega)
  · rw [odd]
    exact Int.bmod_eq_of_le (by omega) (by omega)

theorem wrap_eq_maskedResidue : wrap = maskedResidue cellWidth :=
  funext (signedResidue_eq_maskedResidue (by decide))

section Arithmetic

variable (bits : Nat) (left right : Int)

theorem signedResidue_add :
    signedResidue bits (signedResidue bits left + signedResidue bits right) =
      signedResidue bits (left + right) := by
  simp only [signedResidue, Int.bmod_add_bmod, Int.add_bmod_bmod]

theorem signedResidue_sub :
    signedResidue bits (signedResidue bits left - signedResidue bits right) =
      signedResidue bits (left - right) := by
  simp only [signedResidue, Int.bmod_sub_bmod, Int.sub_bmod_bmod]

theorem signedResidue_mul :
    signedResidue bits (signedResidue bits left * signedResidue bits right) =
      signedResidue bits (left * right) := by
  simp only [signedResidue, Int.bmod_mul_bmod, Int.mul_bmod_bmod]

theorem signedResidue_neg :
    signedResidue bits (-signedResidue bits left) = signedResidue bits (-left) := by
  simp only [signedResidue, Int.bmod_neg_bmod]

end Arithmetic

end LineForth.Number
