/-!
# Words

The sizes of data that the machine moves, and the few operations on them that most modules share:
taking a word apart into halves or bytes, most significant part first, and rounding an address down
to the boundary of an access.

Main statements: `toNat_alignWord` and `toNat_alignHalf` give the rounded addresses as numbers.
-/

namespace E1Machine

/-- Eight bits, the unit of addressing. -/
abbrev Byte := BitVec 8

/-- Sixteen bits, the unit of the instruction stream. -/
abbrev Half := BitVec 16

/-- Thirty-two bits: a register, an address. -/
abbrev Word := BitVec 32

/-- Sixty-four bits: a register pair. -/
abbrev Double := BitVec 64

/-- The upper sixteen bits of a word. -/
def highHalf (w : Word) : Half := w.extractLsb' 16 16

/-- The lower sixteen bits of a word. -/
def lowHalf (w : Word) : Half := w.extractLsb' 0 16

/-- The upper word of a double word. -/
def highWord (d : Double) : Word := d.extractLsb' 32 32

/-- The lower word of a double word. -/
def lowWord (d : Double) : Word := d.extractLsb' 0 32

/-- The address of the word that holds `addr`: the low two bits are cleared. -/
def alignWord (addr : Word) : Word := addr.extractLsb' 2 30 ++ 0#2

/-- The address of the halfword that holds `addr`: bit 0 is cleared. -/
def alignHalf (addr : Word) : Word := addr.extractLsb' 1 31 ++ 0#1

/-- Rounding down to a word is division and product by four. -/
theorem toNat_alignWord (addr : Word) : (alignWord addr).toNat = addr.toNat / 4 * 4 := by
  have h := addr.isLt
  simp only [alignWord, BitVec.toNat_append, BitVec.extractLsb'_toNat, BitVec.toNat_ofNat,
    Nat.shiftRight_eq_div_pow, Nat.shiftLeft_eq, Nat.zero_mod, Nat.or_zero]
  omega

/-- Rounding down to a halfword is division and product by two. -/
theorem toNat_alignHalf (addr : Word) : (alignHalf addr).toNat = addr.toNat / 2 * 2 := by
  have h := addr.isLt
  simp only [alignHalf, BitVec.toNat_append, BitVec.extractLsb'_toNat, BitVec.toNat_ofNat,
    Nat.shiftRight_eq_div_pow, Nat.shiftLeft_eq, Nat.zero_mod, Nat.or_zero]
  omega

/-- Whether `w`, read as a signed number, fits in `n` bits: sign extension of its low `n` bits gives
it back. -/
def fitsSigned (n : Nat) (w : Word) : Bool := (w.setWidth n).signExtend 32 == w

/-- A truth value as a word: one or zero. -/
def ofFlag (b : Bool) : Word := if b then 1 else 0

end E1Machine
