import E1Machine.Bus.Basic

/-!
# Traced buses

A bus that records every request made of it and passes it on, so that what the processor asks of its
host can be shown and reasoned about.
-/

namespace E1Machine

/-- A request to a bus, with the value read or written. -/
inductive Access where
  /-- A byte was read. -/
  | readByte (addr : Word) (value : Byte)
  /-- A halfword was read. -/
  | readHalf (addr : Word) (value : Half)
  /-- A word was read. -/
  | readWord (addr value : Word)
  /-- A byte was written. -/
  | writeByte (addr : Word) (value : Byte)
  /-- A halfword was written. -/
  | writeHalf (addr : Word) (value : Half)
  /-- A word was written. -/
  | writeWord (addr value : Word)
  /-- A halfword of the instruction stream was fetched. -/
  | fetch (addr : Word) (value : Half)
  /-- An I/O word was read. -/
  | ioReadWord (io value : Word)
  /-- An I/O word was written. -/
  | ioWriteWord (io value : Word)
  /-- Half an I/O word was read. -/
  | ioReadHalf (io : Word) (value : Half)
  /-- Half an I/O word was written. -/
  | ioWriteHalf (io : Word) (value : Half)
  /-- An interrupt was acknowledged. -/
  | acknowledge (line : InterruptLine)
  deriving DecidableEq, Repr

/-- A bus and the requests made of it so far. -/
structure Traced (β : Type) where
  /-- The bus that answers. -/
  inner : β
  /-- The requests, oldest first. -/
  trace : Array Access := #[]

namespace Traced

variable {β : Type}

/-- Passes a request on and records it with its answer. -/
def recording {α : Type} (request : StateM β α) (access : α → Access) : StateM (Traced β) α :=
  fun ⟨inner, trace⟩ =>
    let (a, inner) := request inner
    (a, ⟨inner, trace.push (access a)⟩)

/-- Every request is passed on and written down. -/
instance [Bus β] : Bus (Traced β) where
  readByte addr := recording (Bus.readByte addr) (.readByte addr)
  readHalf addr := recording (Bus.readHalf addr) (.readHalf addr)
  readWord addr := recording (Bus.readWord addr) (.readWord addr)
  writeByte addr value := recording (Bus.writeByte addr value) fun _ => .writeByte addr value
  writeHalf addr value := recording (Bus.writeHalf addr value) fun _ => .writeHalf addr value
  writeWord addr value := recording (Bus.writeWord addr value) fun _ => .writeWord addr value
  fetch addr := recording (Bus.fetch addr) (.fetch addr)
  ioReadWord io := recording (Bus.ioReadWord io) (.ioReadWord io)
  ioWriteWord io value :=
    recording (Bus.ioWriteWord io value) fun _ => .ioWriteWord io value
  ioReadHalf io := recording (Bus.ioReadHalf io) (.ioReadHalf io)
  ioWriteHalf io value :=
    recording (Bus.ioWriteHalf io value) fun _ => .ioWriteHalf io value
  acknowledge line := recording (Bus.acknowledge line) fun _ => .acknowledge line

end Traced

end E1Machine
