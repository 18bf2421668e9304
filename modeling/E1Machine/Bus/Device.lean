import E1Machine.Bus.Basic
import E1Machine.Bus.Iram

/-!
# The bus of a device

What the processor core of a device sees: its on-chip RAM in the window, and the host everywhere else.
On a 16-bit bus every word that leaves the device is moved as two halves, the higher first.
-/

namespace E1Machine

/-- The on-chip RAM of a device and the host bus behind it. -/
structure DeviceBus (β : Type) where
  /-- What the device fixes. -/
  config : Config
  /-- The on-chip RAM. -/
  iram : Iram
  /-- The state of the host bus. -/
  host : β

namespace DeviceBus

variable {β : Type}

/-- The on-chip byte that an address names, if it names one. -/
def iramIndex (d : DeviceBus β) (addr : Word) : Option Nat :=
  if d.iram.isEmpty then none else (iramOffset d.config.iramSize addr).map (· % d.iram.size)

/-- Runs an access on the host. -/
def onHost {α : Type} (access : StateM β α) : StateM (DeviceBus β) α := fun ⟨config, iram, host⟩ =>
  let (a, host) := access host
  (a, ⟨config, iram, host⟩)

/-- Updates the on-chip RAM. -/
def modifyIram (f : Iram → Iram) : StateM (DeviceBus β) Unit := fun ⟨config, iram, host⟩ =>
  ((), ⟨config, f iram, host⟩)

/-- A read: from the on-chip RAM if the address is in its window, else as given. -/
def readVia {α : Type} (addr : Word) (chip : Iram → Nat → α) (outside : StateM (DeviceBus β) α) :
    StateM (DeviceBus β) α := do
  let d ← get
  match d.iramIndex addr with
  | some index => return chip d.iram index
  | none => outside

/-- A write: to the on-chip RAM if the address is in its window, else as given. -/
def writeVia (addr : Word) (chip : Iram → Nat → Iram) (outside : StateM (DeviceBus β) Unit) :
    StateM (DeviceBus β) Unit := do
  match (← get).iramIndex addr with
  | some index => modifyIram (chip · index)
  | none => outside

variable [Bus β]

/-- Reads a word from the host over the program bus. -/
def readHostWord (addr : Word) : StateM (DeviceBus β) Word := do
  match (← get).config.programBus with
  | .bits32 => onHost (Bus.readWord addr)
  | .bits16 =>
    let high ← onHost (Bus.readHalf addr)
    let low ← onHost (Bus.readHalf (addr + 2))
    return high ++ low

/-- Writes a word to the host over the program bus. -/
def writeHostWord (addr value : Word) : StateM (DeviceBus β) Unit := do
  match (← get).config.programBus with
  | .bits32 => onHost (Bus.writeWord addr value)
  | .bits16 =>
    onHost (Bus.writeHalf addr (highHalf value))
    onHost (Bus.writeHalf (addr + 2) (lowHalf value))

/-- Reads an I/O word over the I/O bus. -/
def readIoWord (io : Word) : StateM (DeviceBus β) Word := do
  match (← get).config.ioBus with
  | .bits32 => onHost (Bus.ioReadWord io)
  | .bits16 =>
    let high ← onHost (Bus.ioReadHalf io)
    let low ← onHost (Bus.ioReadHalf (io + 2))
    return high ++ low

/-- Writes an I/O word over the I/O bus. -/
def writeIoWord (io value : Word) : StateM (DeviceBus β) Unit := do
  match (← get).config.ioBus with
  | .bits32 => onHost (Bus.ioWriteWord io value)
  | .bits16 =>
    onHost (Bus.ioWriteHalf io (highHalf value))
    onHost (Bus.ioWriteHalf (io + 2) (lowHalf value))

/-- Requests to memory are answered by the RAM inside its window and by the host elsewhere, and I/O goes to the
host. -/
instance : Bus (DeviceBus β) where
  readByte addr := readVia addr Iram.byteAt (onHost (Bus.readByte addr))
  readHalf addr := readVia addr Iram.halfAt (onHost (Bus.readHalf addr))
  readWord addr := readVia addr Iram.wordAt (readHostWord addr)
  writeByte addr value :=
    writeVia addr (Iram.storeByte · · value) (onHost (Bus.writeByte addr value))
  writeHalf addr value :=
    writeVia addr (Iram.storeHalf · · value) (onHost (Bus.writeHalf addr value))
  writeWord addr value := writeVia addr (Iram.storeWord · · value) (writeHostWord addr value)
  fetch addr := readVia addr Iram.halfAt (onHost (Bus.fetch addr))
  ioReadWord := readIoWord
  ioWriteWord := writeIoWord
  acknowledge line := onHost (Bus.acknowledge line)

end DeviceBus

end E1Machine
