import E1Machine.Interrupt

/-!
# The bus

What the processor asks of the world outside: memory, I/O and interrupt acknowledge. A bus is
any type of states with these operations; each may change the state, so that devices with side effects
on reads can be described as well. All accesses are big-endian, and the processor aligns halfword and
word addresses before it asks.
-/

namespace E1Machine

/-- The I/O address that a data address stands for: thirteen of its bits, as a word address. -/
def ioAddress (addr : Word) : Word := (addr.extractLsb' 13 13 ++ 0#2).setWidth 32

/-- Whether an I/O address names the lower half of its word. -/
def isLowerIoHalf (io : Word) : Bool := io.getLsbD 1

/-- A bus with states `β`. -/
class Bus (β : Type) where
  /-- Reads a byte. -/
  readByte : Word → StateM β Byte
  /-- Reads a halfword. -/
  readHalf : Word → StateM β Half
  /-- Reads a word. -/
  readWord : Word → StateM β Word
  /-- Writes a byte. -/
  writeByte : Word → Byte → StateM β Unit
  /-- Writes a halfword. -/
  writeHalf : Word → Half → StateM β Unit
  /-- Writes a word. -/
  writeWord : Word → Word → StateM β Unit
  /-- Fetches a halfword of the instruction stream: by default a data read. -/
  fetch : Word → StateM β Half := readHalf
  /-- Reads an I/O word. -/
  ioReadWord : Word → StateM β Word
  /-- Writes an I/O word. -/
  ioWriteWord : Word → Word → StateM β Unit
  /-- Reads half an I/O word: by default a part of the whole word. -/
  ioReadHalf : Word → StateM β Half := fun io => do
    let word ← ioReadWord (alignWord io)
    return if isLowerIoHalf io then lowHalf word else highHalf word
  /-- Writes half an I/O word: by default the whole word is read, changed and written back. -/
  ioWriteHalf : Word → Half → StateM β Unit := fun io value => do
    let word ← ioReadWord (alignWord io)
    ioWriteWord (alignWord io)
      (if isLowerIoHalf io then highHalf word ++ value else value ++ lowHalf word)
  /-- Told after the interrupt of an external line was taken: by default nothing. -/
  acknowledge : InterruptLine → StateM β Unit := fun _ => pure ()

end E1Machine
