/-! # Two's complement

The signed residue of an integer in a register of a given width: the member of the half-open
interval from minus half the register's range to half of it that differs from the integer by a
multiple of the range. The data stack keeps its numbers in a register of 64 bits.
-/

namespace LineForth.Number

/-- The width in bits of a number on the data stack. -/
def cellWidth : Nat := 64

def signedResidue (bits : Nat) (value : Int) : Int := value.bmod (Nat.pow 2 bits)

/-- The number that a cell keeps of a result. -/
def wrap (value : Int) : Int := signedResidue cellWidth value

/-- The least number that a cell holds, minus the sixty-third power of two. -/
def leastCell : Int := -9223372036854775808

/-- The greatest number that a cell holds, one below the sixty-third power of two. -/
def greatestCell : Int := 9223372036854775807

def FitsCell (value : Int) : Prop := leastCell ≤ value ∧ value ≤ greatestCell

instance (value : Int) : Decidable (FitsCell value) :=
  inferInstanceAs (Decidable (_ ∧ _))

theorem fitsCell_wrap (value : Int) : FitsCell (wrap value) := by
  have lower := Int.le_bmod (x := value) (m := Nat.pow 2 cellWidth) (by decide)
  have upper := Int.bmod_lt (x := value) (m := Nat.pow 2 cellWidth) (by decide)
  have range : Nat.pow 2 cellWidth = 18446744073709551616 := by decide
  simp only [FitsCell, wrap, signedResidue, leastCell, greatestCell]
  rw [range] at lower upper ⊢
  omega

theorem wrap_eq_self {value : Int} (fits : FitsCell value) : wrap value = value := by
  have range : Nat.pow 2 cellWidth = 18446744073709551616 := by decide
  simp only [FitsCell, leastCell, greatestCell] at fits
  simp only [wrap, signedResidue, range]
  exact Int.bmod_eq_of_le (by omega) (by omega)

end LineForth.Number
