import E1Machine.Device

/-!
# On-chip RAM

The on-chip RAM answers a window of addresses in which it repeats. It is an array of bytes; reading and
writing several bytes goes round its end.

Main statements: a byte reads back what was stored at its index (`byteAt_storeByte`), and no store
changes the size.
-/

namespace E1Machine

/-- The offset into the RAM of an address in its window, `none` outside. The window holds the addresses
whose top three bits are `110`. -/
def iramOffset (size : IramSize) (addr : Word) : Option Nat :=
  if addr.extractLsb' 29 3 = 0b110#3 then some (addr.toNat % size.bytes) else none

/-- The bytes of an on-chip RAM. -/
abbrev Iram := Array Byte

namespace Iram

/-- A RAM of a given size that holds zeros. -/
def zeros (size : IramSize) : Iram := Array.replicate size.bytes 0

/-- The byte at an index, modulo the size. -/
def byteAt (ram : Iram) (index : Nat) : Byte := ram.getD (index % ram.size) 0

/-- Replaces the byte at an index, modulo the size. -/
def storeByte (ram : Iram) (index : Nat) (value : Byte) : Iram :=
  ram.setIfInBounds (index % ram.size) value

/-- The two bytes from an index, the first one higher. -/
def halfAt (ram : Iram) (index : Nat) : Half := byteAt ram index ++ byteAt ram (index + 1)

/-- The four bytes from an index, the first one highest. -/
def wordAt (ram : Iram) (index : Nat) : Word :=
  byteAt ram index ++ byteAt ram (index + 1) ++ byteAt ram (index + 2) ++ byteAt ram (index + 3)

/-- Stores two bytes from an index, the higher first. -/
def storeHalf (ram : Iram) (index : Nat) (value : Half) : Iram :=
  storeByte (storeByte ram index (value.extractLsb' 8 8)) (index + 1) (value.extractLsb' 0 8)

/-- Stores four bytes from an index, the highest first. -/
def storeWord (ram : Iram) (index : Nat) (value : Word) : Iram :=
  storeByte (storeByte (storeByte (storeByte ram index (value.extractLsb' 24 8))
    (index + 1) (value.extractLsb' 16 8)) (index + 2) (value.extractLsb' 8 8))
    (index + 3) (value.extractLsb' 0 8)

/-- Stores bytes in order from an index on. -/
def load (ram : Iram) (index : Nat) : List Byte → Iram
  | [] => ram
  | byte :: bytes => load (storeByte ram index byte) (index + 1) bytes

/-- The RAM is created with its full size. -/
@[simp] theorem size_zeros (size : IramSize) : (zeros size).size = size.bytes := by
  simp [zeros]

/-- Storing a byte keeps the size. -/
@[simp] theorem size_storeByte (ram : Iram) (index : Nat) (value : Byte) :
    (storeByte ram index value).size = ram.size := by
  simp [storeByte]

/-- Storing a halfword keeps the size. -/
@[simp] theorem size_storeHalf (ram : Iram) (index : Nat) (value : Half) :
    (storeHalf ram index value).size = ram.size := by
  simp [storeHalf]

/-- Storing a word keeps the size. -/
@[simp] theorem size_storeWord (ram : Iram) (index : Nat) (value : Word) :
    (storeWord ram index value).size = ram.size := by
  simp [storeWord]

/-- A stored byte is found at all indices that agree with its own modulo the size, and nowhere else. -/
theorem byteAt_storeByte (ram : Iram) (a b : Nat) (value : Byte) (h : 0 < ram.size) :
    byteAt (storeByte ram a value) b =
      if a % ram.size = b % ram.size then value else byteAt ram b := by
  have hb := Nat.mod_lt b h
  simp only [byteAt, size_storeByte]
  rw [Array.getD_eq_getD_getElem?, Array.getD_eq_getD_getElem?, storeByte,
    Array.getElem?_setIfInBounds]
  by_cases hab : a % ram.size = b % ram.size <;> simp [hab, hb]

end Iram

end E1Machine
