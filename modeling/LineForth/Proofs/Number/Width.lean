import LineForth.Number.Register
import LineForth.Proofs.Number.Residue
import Mathlib.Algebra.Order.Ring.Int
import Mathlib.Data.Int.ModEq

/-! # Registers of every width

What the masks of a register leave of a number is told apart from every other number by two properties:
it lies in the half-open interval around zero that the register's range makes up, and it differs from the
number by a multiple of that range (`eq_maskedResidue_iff`). A register holds just this number. Not all
widths have one: the sign bit is itself a number, whose digits must be counted and find room
(`registerResidue_law`).
-/

namespace LineForth.Number

/-- The numbers that a register of this width holds, half of them negative. -/
def FitsRegister (bits : Nat) (value : Int) : Prop :=
  -(2 : Int) ^ (bits - 1) ≤ value ∧ value < (2 : Int) ^ (bits - 1)

instance (bits : Nat) (value : Int) : Decidable (FitsRegister bits value) :=
  inferInstanceAs (Decidable (_ ∧ _))

/-- The number that stands for a value in a register of this width. -/
structure IsResidue (bits : Nat) (value residue : Int) : Prop where
  fits : FitsRegister bits residue
  congruent : residue ≡ value [ZMOD 2 ^ bits]

/-- The range of a register is twice its half. -/
private theorem two_pow_eq_double {bits : Nat} (positive : 0 < bits) :
    (2 : Int) ^ bits = 2 * 2 ^ (bits - 1) := by
  rw [← pow_succ', Nat.sub_add_cancel positive]

section Masks

variable {bits : Nat} (positive : 0 < bits)

include positive

/-- Two numbers that a register holds are the same if they differ by a multiple of its range. -/
theorem IsResidue.unique {value first second : Int} (left : IsResidue bits value first)
    (right : IsResidue bits value second) : first = second := by
  have apart : (2 : Int) ^ bits ∣ first - second :=
    (right.congruent.trans left.congruent.symm).dvd
  obtain ⟨least, below⟩ := left.fits
  obtain ⟨otherLeast, otherBelow⟩ := right.fits
  have double := two_pow_eq_double positive
  have near : |first - second| < 2 ^ bits := by
    rw [abs_lt]
    constructor
    · omega
    · omega
  exact Int.sub_eq_zero.mp (Int.eq_zero_of_abs_lt_dvd apart near)

theorem isResidue_maskedResidue (value : Int) : IsResidue bits value (maskedResidue bits value) := by
  rw [← signedResidue_eq_maskedResidue positive, signedResidue]
  have range : ((Nat.pow 2 bits : Nat) : Int) = 2 ^ bits := by exact_mod_cast rfl
  have some : 0 < Nat.pow 2 bits := Nat.two_pow_pos bits
  have least := Int.le_bmod (x := value) some
  have below := Int.bmod_lt (x := value) some
  refine ⟨⟨?_, ?_⟩, ?_⟩
  · rw [range, two_pow_eq_double positive] at least
    omega
  · rw [range, two_pow_eq_double positive] at below
    omega
  · rw [Int.ModEq, ← range, Int.bmod_emod]

/-- The masks give the one number that stands for a value. -/
theorem eq_maskedResidue_iff {value residue : Int} :
    residue = maskedResidue bits value ↔ IsResidue bits value residue := by
  constructor
  · rintro rfl
    exact isResidue_maskedResidue positive value
  · exact fun stands => stands.unique positive (isResidue_maskedResidue positive value)

/-- A number that the register holds stands for itself. -/
theorem maskedResidue_of_fits {value : Int} (fits : FitsRegister bits value) :
    maskedResidue bits value = value :=
  ((eq_maskedResidue_iff positive).mpr ⟨fits, rfl⟩).symm

theorem maskedResidue_maskedResidue (value : Int) :
    maskedResidue bits (maskedResidue bits value) = maskedResidue bits value :=
  maskedResidue_of_fits positive (isResidue_maskedResidue positive value).fits

end Masks

/-- What the masks of any width leave of any number is the one number in the register's range that is
congruent to it; so what the register holds stays, masking twice is masking once, and sums, differences
and products may be taken of what is masked. On every host, a register of any width that can be counted
holds what the masks leave, if there is room for working it out; else there is none, and neither is one of
no bits or of more bits than can be counted. A cell of the stack is the register of 64 bits. -/
theorem registerResidue_law :
    (∀ bits : Nat, 0 < bits →
      (∀ value residue, residue = maskedResidue bits value ↔ IsResidue bits value residue) ∧
      (∀ value, FitsRegister bits value → maskedResidue bits value = value) ∧
      (∀ value, maskedResidue bits (maskedResidue bits value) = maskedResidue bits value) ∧
      ∀ left right,
        maskedResidue bits (left + right) =
          maskedResidue bits (maskedResidue bits left + maskedResidue bits right) ∧
        maskedResidue bits (left - right) =
          maskedResidue bits (maskedResidue bits left - maskedResidue bits right) ∧
        maskedResidue bits (left * right) =
          maskedResidue bits (maskedResidue bits left * maskedResidue bits right)) ∧
    ∀ (memory : Memory) (value bits : Int),
      (0 < bits → bits ≤ countableWidth →
        (memory.hasRoom value bits.toNat = true →
          registerResidue value bits memory = .ok (maskedResidue bits.toNat value)) ∧
        (memory.hasRoom value bits.toNat = false →
          registerResidue value bits memory = .error .noRoom)) ∧
      (bits ≤ 0 → registerResidue value bits memory = .error .noBits) ∧
      (countableWidth < bits → registerResidue value bits memory = .error .tooManyBits) ∧
      wrap value = maskedResidue cellWidth value := by
  refine ⟨fun bits positive => ⟨fun value residue => eq_maskedResidue_iff positive,
      fun value => maskedResidue_of_fits positive, maskedResidue_maskedResidue positive,
      fun left right => ?_⟩,
    fun memory value bits => ⟨fun positive countable => ⟨fun room => ?_, fun full => ?_⟩,
      fun none => ?_, fun wide => ?_, ?_⟩⟩
  · simp only [← signedResidue_eq_maskedResidue positive]
    exact ⟨(signedResidue_add ..).symm, (signedResidue_sub ..).symm, (signedResidue_mul ..).symm⟩
  · rw [registerResidue_eq positive countable room, signedResidue_eq_maskedResidue (by omega)]
  · rw [registerResidue, if_neg (by omega), if_neg (by omega), if_neg (by simp [full])]
  · rw [registerResidue, if_pos none]
  · rw [registerResidue, if_neg (by omega), if_pos wide]
  · exact congrFun wrap_eq_maskedResidue value

/-- The law in a register of eight bits, where the square of 100 does not fit, on a host with room for
sixteen bits; and next to it at the widths that have no register there, or on any host. -/
theorem registerResidue_law_byte :
    let memory : Memory := ⟨fun _ bits => bits ≤ 16⟩
    FitsRegister 8 (-56) ∧ -56 ≡ 200 [ZMOD 2 ^ 8] ∧ registerResidue 200 8 memory = .ok (-56) ∧
      maskedResidue 8 (100 * 100) = maskedResidue 8 (maskedResidue 8 100 * maskedResidue 8 100) ∧
      registerResidue 200 17 memory = .error .noRoom ∧ registerResidue 1 (-3) memory = .error .noBits ∧
      registerResidue 1 (countableWidth + 1) memory = .error .tooManyBits := by
  intro memory
  obtain ⟨masks, registers⟩ := registerResidue_law
  obtain ⟨only, _, _, operations⟩ := masks 8 (by decide)
  have fits : FitsRegister 8 (-56) := by decide
  have congruent : -56 ≡ 200 [ZMOD 2 ^ 8] := by decide
  have held := ((registers memory 200 8).1 (by decide) (by decide)).1 (by decide)
  have full := ((registers memory 200 17).1 (by decide) (by decide)).2 (by decide)
  refine ⟨fits, congruent, ?_, (operations 100 100).2.2, full, ?_, ?_⟩
  · rw [held, (only 200 (-56)).mpr ⟨fits, congruent⟩]
    rfl
  · exact (registers memory 1 (-3)).2.1 (by decide)
  · exact (registers memory 1 _).2.2.1 (by omega)

/-- Not every width has a register, however much room there is: the sign bit of this one cannot be
counted. -/
theorem not_registerResidue_of_positive :
    ¬ ∃ memory : Memory, ∀ value bits : Int, 0 < bits →
      ∃ residue, registerResidue value bits memory = .ok residue := by
  rintro ⟨memory, every⟩
  obtain ⟨residue, held⟩ := every leastCell (10 ^ 40) (by decide)
  have refused : registerResidue leastCell (10 ^ 40) memory = .error .tooManyBits := by
    rw [registerResidue, if_neg (by decide), if_pos (by decide)]
  rw [refused] at held
  contradiction

end LineForth.Number
