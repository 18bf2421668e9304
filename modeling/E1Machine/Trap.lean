import E1Machine.Word

/-!
# Trap vectors

Traps, interrupts and exceptions enter the guest through a table of sixty-four vectors. The memory
control register selects where that table, and the table of emulation routines, is anchored.
-/

namespace E1Machine

/-! ## Trap numbers -/

namespace TrapNumber

/-- Input line `IO2`. -/
abbrev io2 : Nat := 48
/-- Input line `IO1`. -/
abbrev io1 : Nat := 49
/-- Input line `INT4`. -/
abbrev int4 : Nat := 50
/-- Input line `INT3`. -/
abbrev int3 : Nat := 51
/-- Input line `INT2`. -/
abbrev int2 : Nat := 52
/-- Input line `INT1`. -/
abbrev int1 : Nat := 53
/-- Input line `IO3`. -/
abbrev io3 : Nat := 54
/-- The timer interrupt. -/
abbrev timer : Nat := 55
/-- The trace exception. -/
abbrev trace : Nat := 57
/-- Range, privilege and frame errors. -/
abbrev error : Nat := 60
/-- The reset entry. -/
abbrev reset : Nat := 62

end TrapNumber

/-- Where the trap table is anchored. -/
inductive TrapEntry where
  /-- External memory area 0. -/
  | mem0
  /-- External memory area 1. -/
  | mem1
  /-- External memory area 2. -/
  | mem2
  /-- On-chip memory. -/
  | iram
  /-- The top of external memory area 3, where reset puts it. -/
  | mem3
  deriving DecidableEq, Repr

namespace TrapEntry

/-- All anchors, lowest address first. -/
def all : List TrapEntry := [mem0, mem1, mem2, iram, mem3]

/-- The anchor that a selector names; 4, 5 and 6 are reserved. -/
def ofSelector : Nat → Option TrapEntry
  | 0 => some mem0
  | 1 => some mem1
  | 2 => some mem2
  | 3 => some iram
  | 7 => some mem3
  | _ => none

/-- The selector field of a memory control value: bits 12 to 14. -/
def selector (mcr : Word) : Nat := (mcr.extractLsb' 12 3).toNat

/-- The anchor that a memory control value selects. -/
def ofMcr (mcr : Word) : Option TrapEntry := ofSelector (selector mcr)

/-- The anchor's address. -/
def base : TrapEntry → Word
  | mem0 => 0x00000000
  | mem1 => 0x40000000
  | mem2 => 0x80000000
  | iram => 0xc0000000
  | mem3 => 0xffffff00

/-- The vector of trap `number`, modulo 64: upward from the top area, downward elsewhere. -/
def vector (entry : TrapEntry) (number : Nat) : Word :=
  let n := number % 64
  match entry with
  | mem3 => entry.base ||| BitVec.ofNat 32 (4 * n)
  | _ => entry.base ||| BitVec.ofNat 32 (4 * (63 - n))

/-- The routine that emulates the instructions with a given high byte. -/
def emulation (entry : TrapEntry) (byte : Byte) : Word :=
  match entry with
  | mem3 => (entry.base - 0x100) ||| (byte.extractLsb' 0 4 ++ 0#4).setWidth 32
  | _ => entry.base ||| 0x10c ||| ((0xcf - byte).extractLsb' 0 4 ++ 0#4).setWidth 32

end TrapEntry

/-- The trap number and the condition code of a trap instruction. -/
def splitTrap (word : Half) : Nat × Nat :=
  ((word.extractLsb' 2 6).toNat, (word.extractLsb' 8 2 ++ word.extractLsb' 0 2).toNat)

end E1Machine
