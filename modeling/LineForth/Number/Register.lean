import LineForth.Number.TwosComplement

/-! # Registers of any width

The signed residue in a register whose width is given as an integer. No register has less than one
bit. The sign of a wide one is marked by a power of two, kept in digits of 30 bits, which must be few
enough to be counted; and the numbers that are worked out must find room in memory, of which every host
has its own. Otherwise the result is the signed residue, whatever the width (`registerResidue_eq`).
-/

namespace LineForth.Number

/-- Why there is no register of a width. -/
inductive WidthError
  /-- The register would have no bits. -/
  | noBits
  /-- The register would have more bits than memory has room for. -/
  | noRoom
  /-- The register would have more bits than can be counted. -/
  | tooManyBits
deriving DecidableEq, Repr

/-- What a host has room for: the numbers that are worked out on the way to the residue of a value in a
register of this many bits, or not. -/
structure Memory where
  hasRoom : (value : Int) → (bits : Nat) → Bool

def Memory.unbounded : Memory := ⟨fun _ _ => true⟩

/-- The widest register that can be counted. Its number of digits is that of four-byte digits in a
block of 2 ^ 63 - 1 bytes behind a head of 24, less the one that the sign starts. -/
def countableWidth : Nat := 30 * ((9223372036854775807 - 24) / 4 - 1) + 1

/-- The bits of a register that is sure to hold a value, its sign included. -/
def roomFor (value : Int) : Nat := value.natAbs.log2 + 2

/-- The signed residue of a value in a register of any width. A register wider than the value needs
leaves it as it is, so no such range is worked out. -/
def registerResidue (value bits : Int) (memory : Memory := .unbounded) : Except WidthError Int :=
  if bits ≤ 0 then .error .noBits
  else if countableWidth < bits then .error .tooManyBits
  else if memory.hasRoom value bits.toNat then
    .ok (signedResidue (min bits.toNat (roomFor value)) value)
  else .error .noRoom

theorem signedResidue_eq_self {bits : Nat} {value : Int} (wide : roomFor value ≤ bits) :
    signedResidue bits value = value := by
  have bound : value.natAbs < Nat.pow 2 (value.natAbs.log2 + 1) := Nat.lt_log2_self
  have widen : Nat.pow 2 (roomFor value) ≤ Nat.pow 2 bits :=
    Nat.pow_le_pow_right (by decide) wide
  have double : Nat.pow 2 (roomFor value) = Nat.pow 2 (value.natAbs.log2 + 1) * 2 := rfl
  exact Int.bmod_eq_of_le (by omega) (by omega)

/-- The width that is spared makes no difference. -/
theorem signedResidue_min_roomFor (bits : Nat) (value : Int) :
    signedResidue (min bits (roomFor value)) value = signedResidue bits value := by
  rcases Nat.le_total bits (roomFor value) with narrow | wide
  · rw [Nat.min_eq_left narrow]
  · rw [Nat.min_eq_right wide, signedResidue_eq_self (Nat.le_refl _), signedResidue_eq_self wide]

theorem registerResidue_eq {value bits : Int} {memory : Memory} (positive : 0 < bits)
    (countable : bits ≤ countableWidth) (room : memory.hasRoom value bits.toNat = true) :
    registerResidue value bits memory = .ok (signedResidue bits.toNat value) := by
  unfold registerResidue
  rw [if_neg (by omega), if_neg (by omega), if_pos room, signedResidue_min_roomFor]

end LineForth.Number
