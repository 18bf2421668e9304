import E1Machine.Effect.Arithmetic
import E1Machine.Machine

/-!
# Loads and stores

The transfers between registers and the bus. The address register of an advancing access is advanced
before a load but after a store. A signed store whose value does not fit is carried out and raises a
range error.
-/

namespace E1Machine

namespace Cpu

/-- The address of a transfer. -/
def transferAddress (c : Cpu) : Addressing → Word
  | .offset base offset => c.readBeyondCarry base + offset
  | .advancing address _ => c.read address

/-- Advances the address register past an access at `addr`, if it is to be advanced. -/
def advanceAddress (c : Cpu) (addr : Word) : Addressing → Cpu
  | .offset _ _ => c
  | .advancing address step => c.write address (addr + step)

/-- The words that a store takes from its data registers; the status register stands for zeros. -/
def stored (c : Cpu) (data : Operand) : Word × Word :=
  if data.isSr then (0, 0) else (c.read data, c.read data.next)

/-- A reserved transfer: the address register is advanced and nothing is moved. -/
def reservedTransfer (c : Cpu) (address : Operand) (step : Word) (report : Diagnostic) : Cpu :=
  ((c.write address (c.read address + step)).report report).charge .memoryWord

end Cpu

/-- Whether a store in a form loses part of the value that a signed load would need. -/
def DataForm.loses (value : Word) : DataForm → Bool
  | byte signed => signed && !fitsSigned 8 value
  | half signed => signed && !fitsSigned 16 value
  | word | double | ioWord | ioDouble | stack => false

/-- Extends a value by its sign or by zeros to a word. -/
def extend {n : Nat} (signed : Bool) (value : BitVec n) : Word :=
  if signed then value.signExtend 32 else value.setWidth 32

namespace Machine

variable {β : Type} [Bus β]

/-- Reads the word that holds an address. -/
def readWord (addr : Word) : Exec β Word := onBus (Bus.readWord (alignWord addr))

/-- Writes the word that holds an address. -/
def writeWord (addr value : Word) : Exec β Unit := onBus (Bus.writeWord (alignWord addr) value)

/-- Loads data at an address into a register or pair. -/
def loadData (form : DataForm) (addr : Word) (data : Operand) : Exec β Unit := do
  match form with
  | .byte signed =>
    let value ← onBus (Bus.readByte addr)
    modifyCpu (·.write data (extend signed value))
  | .half signed =>
    let value ← onBus (Bus.readHalf (alignHalf addr))
    modifyCpu (·.write data (extend signed value))
  | .word =>
    let value ← readWord addr
    modifyCpu (·.write data value)
  | .double =>
    let high ← readWord addr
    let low ← readWord (addr + 4)
    modifyCpu (·.writePair data (high ++ low))
  | .ioWord =>
    let value ← onBus (Bus.ioReadWord (ioAddress addr))
    modifyCpu (·.write data value)
  | .ioDouble =>
    let high ← onBus (Bus.ioReadWord (ioAddress addr))
    let low ← onBus (Bus.ioReadWord (ioAddress (addr + 4)))
    modifyCpu (·.writePair data (high ++ low))
  | .stack =>
    let c ← getCpu
    if addr.ult c.regs.sp then
      let value ← readWord addr
      modifyCpu (·.write data value)
    else
      modifyCpu (·.write data (c.regs.localAt (stackCell addr)))

/-- Stores data from a register or pair at an address. -/
def storeData (form : DataForm) (addr : Word) (data : Operand) : Exec β Unit := do
  let c ← getCpu
  let (high, low) := c.stored data
  match form with
  | .byte _ => onBus (Bus.writeByte addr (high.setWidth 8))
  | .half _ => onBus (Bus.writeHalf (alignHalf addr) (lowHalf high))
  | .word => writeWord addr high
  | .double =>
    writeWord addr high
    writeWord (addr + 4) low
  | .ioWord => onBus (Bus.ioWriteWord (ioAddress addr) high)
  | .ioDouble =>
    onBus (Bus.ioWriteWord (ioAddress addr) high)
    onBus (Bus.ioWriteWord (ioAddress (addr + 4)) low)
  | .stack =>
    if addr.ult c.regs.sp then writeWord addr high
    else modifyCpu (·.modifyRegs (·.setLocalAt (stackCell addr) high))
  modifyCpu (·.raiseIf (form.loses high) .range)

/-- A load. -/
def load (form : DataForm) (addressing : Addressing) (data : Operand) : Exec β Unit := do
  let addr := (← getCpu).transferAddress addressing
  modifyCpu (·.advanceAddress addr addressing)
  loadData form addr data
  modifyCpu (·.charge form.cost)

/-- A store. -/
def store (form : DataForm) (addressing : Addressing) (data : Operand) : Exec β Unit := do
  let addr := (← getCpu).transferAddress addressing
  modifyCpu (·.charge form.cost)
  storeData form addr data
  modifyCpu (·.advanceAddress addr addressing)

end Machine

end E1Machine
