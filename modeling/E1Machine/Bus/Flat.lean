import E1Machine.Bus.Basic
import E1Machine.Sparse

/-!
# Flat memory

A bus that is nothing but storage: four gigabytes of bytes, a word per I/O address, and a record
of the acknowledged interrupts. Untouched bytes and words read as zero.

Main statements: `byteAt_storeByte` and `ioWord_setIoWord`, storage reads back what was written last.
-/

namespace E1Machine

/-- Sparse storage for memory and I/O. -/
structure FlatMemory where
  /-- The bytes of memory. -/
  bytes : Sparse Byte 32 := .blank
  /-- The I/O words. -/
  ioWords : Sparse Word 32 := .blank
  /-- The acknowledged lines, oldest first. -/
  acknowledged : Array InterruptLine := #[]

namespace FlatMemory

/-- The byte at an address. -/
def byteAt (m : FlatMemory) (addr : Word) : Byte := m.bytes.read 0 addr.toNat

/-- Replaces the byte at an address. -/
def storeByte (m : FlatMemory) (addr : Word) (value : Byte) : FlatMemory :=
  { m with bytes := m.bytes.write addr.toNat value }

/-- The two bytes from an address, the first one higher. -/
def halfAt (m : FlatMemory) (addr : Word) : Half := m.byteAt addr ++ m.byteAt (addr + 1)

/-- The four bytes from an address, the first one highest. -/
def wordAt (m : FlatMemory) (addr : Word) : Word :=
  m.byteAt addr ++ m.byteAt (addr + 1) ++ m.byteAt (addr + 2) ++ m.byteAt (addr + 3)

/-- Stores two bytes from an address, the higher first. -/
def storeHalf (m : FlatMemory) (addr : Word) (value : Half) : FlatMemory :=
  (m.storeByte addr (value.extractLsb' 8 8)).storeByte (addr + 1) (value.extractLsb' 0 8)

/-- Stores four bytes from an address, the highest first. -/
def storeWord (m : FlatMemory) (addr : Word) (value : Word) : FlatMemory :=
  (((m.storeByte addr (value.extractLsb' 24 8)).storeByte (addr + 1)
    (value.extractLsb' 16 8)).storeByte (addr + 2) (value.extractLsb' 8 8)).storeByte (addr + 3)
    (value.extractLsb' 0 8)

/-- Stores bytes in order from an address on. -/
def load (m : FlatMemory) (addr : Word) : List Byte → FlatMemory
  | [] => m
  | byte :: bytes => (m.storeByte addr byte).load (addr + 1) bytes

/-- Stores halfwords in order from an address on. -/
def loadHalves (m : FlatMemory) (addr : Word) : List Half → FlatMemory
  | [] => m
  | half :: halves => (m.storeHalf addr half).loadHalves (addr + 2) halves

/-- The bytes from an address on. -/
def dump (m : FlatMemory) (addr : Word) (length : Nat) : List Byte :=
  (List.range length).map fun offset => m.byteAt (addr + BitVec.ofNat 32 offset)

/-- The word at an I/O address. -/
def ioWord (m : FlatMemory) (io : Word) : Word := m.ioWords.read 0 io.toNat

/-- Replaces the word at an I/O address. -/
def setIoWord (m : FlatMemory) (io value : Word) : FlatMemory :=
  { m with ioWords := m.ioWords.write io.toNat value }

/-- A stored byte is read back, and every other byte is as before. -/
theorem byteAt_storeByte (m : FlatMemory) (a b : Word) (value : Byte) :
    (m.storeByte a value).byteAt b = if a = b then value else m.byteAt b := by
  simp [byteAt, storeByte, Sparse.read_write, a.isLt, b.isLt, BitVec.toNat_inj]

/-- A stored I/O word is read back, and every other one is as before. -/
theorem ioWord_setIoWord (m : FlatMemory) (a b value : Word) :
    (m.setIoWord a value).ioWord b = if a = b then value else m.ioWord b := by
  simp [ioWord, setIoWord, Sparse.read_write, a.isLt, b.isLt, BitVec.toNat_inj]

/-- A flat memory answers from its bytes and I/O words, and notes the lines that are acknowledged. -/
instance : Bus FlatMemory where
  readByte addr := return (← get).byteAt addr
  readHalf addr := return (← get).halfAt addr
  readWord addr := return (← get).wordAt addr
  writeByte addr value := modify (·.storeByte addr value)
  writeHalf addr value := modify (·.storeHalf addr value)
  writeWord addr value := modify (·.storeWord addr value)
  ioReadWord io := return (← get).ioWord io
  ioWriteWord io value := modify (·.setIoWord io value)
  acknowledge line := modify fun m => { m with acknowledged := m.acknowledged.push line }

end FlatMemory

end E1Machine
