import E1Machine.Cpu.Special

/-!
# Entry frames

How control enters the guest's handlers. An entry opens a frame after the current one, stacks the
return address and the status register there, and continues in supervisor state with interrupts locked.
Bit 0 of a stacked return address holds the supervisor state to return to. The emulation of an
instruction also hands over its operands, and stays in the state of the emulated program.
-/

namespace E1Machine

namespace Cpu

/-- The address to return to, with the supervisor flag in bit 0. -/
def returnPc (c : Cpu) : Word := c.regs.pc.extractLsb' 1 31 ++ BitVec.ofBool c.status.s

/-- Notes a length, of the instruction that makes the entry, in the status register. -/
def noteLength (c : Cpu) (halfwords : Nat) : Cpu :=
  c.modifyStatus fun s => { s with ilc := BitVec.ofNat 2 halfwords }

/-- Replaces the registers of the current frame from `code` on. -/
def fillFrame (c : Cpu) (code : Nat) : List Word → Cpu
  | [] => c
  | value :: values => (c.modifyRegs (·.setInFrame code value)).fillFrame (code + 1) values

/-- Opens a frame of the given length, stacks words there and notes the entry. -/
def stackEntry (c : Cpu) (cause : EntryCause) (length : BitVec 4) (stacked : List Word) : Cpu :=
  let c := (c.modifyStatus (·.openFrame length)).fillFrame 0 stacked
  { c with entries := c.entries.push ⟨cause, c.status.fp, stacked, c.delay.target⟩ }

/-- Enters the handler at `vector` through a frame of the given length. -/
def enterFrame (c : Cpu) (cause : EntryCause) (vector : Word) (length : BitVec 4) : Cpu :=
  let c := c.noteLength c.length
  ((c.stackEntry cause length [c.returnPc, c.status.bits]).modifyStatus fun s =>
    { s with m := false, t := false, l := true, s := true, i := s.i || cause.isInterrupt }).jump
    vector |>.charge .entrySequence

/-- Enters the handler of a trap instruction. -/
def enterTrap (c : Cpu) (number : Nat) : Cpu :=
  c.enterFrame (.trap number) (c.entry.vector number) 6

/-- Enters the handler of an interrupt. -/
def enterInterrupt (c : Cpu) (source : InterruptSource) : Cpu :=
  c.enterFrame (.interrupt source) (c.entry.vector source.trapNumber) 2

/-- Enters the handler of an exception. -/
def raise (c : Cpu) (exception : Exception) : Cpu :=
  c.enterFrame (.exception exception) (c.entry.vector exception.trapNumber) 2

/-- The stack address that belongs to local register `code`, in the page above the stack pointer. -/
def stackAddress (c : Cpu) (code : Nat) : Word :=
  (c.regs.sp.extractLsb' 8 24 ++ 0#8) + 0x100 + BitVec.ofNat 32 (4 * (c.regs.slot code).val)

/-- Enters the routine that emulates the instructions with a given high byte. The frame receives the
stack address of the destination, both source registers, the return address and the status register. -/
def enterEmulation (c : Cpu) (byte : Byte) (dst src : Nat) : Cpu :=
  let c := c.noteLength 1
  let stacked := [c.stackAddress dst, c.regs.inFrame src, c.regs.inFrame (src + 1), c.returnPc,
    c.status.bits]
  ((c.stackEntry (.emulation byte) 6 stacked).modifyStatus fun s =>
    { s with m := false, t := false, l := true }).jump (c.entry.emulation byte)
    |>.charge .softwareEntry

end Cpu

end E1Machine
