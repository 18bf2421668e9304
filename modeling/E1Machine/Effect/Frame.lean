import E1Machine.Effect.Arithmetic
import E1Machine.Machine

/-!
# The register stack

The local registers hold the top of a stack that grows upward in memory: below the stack pointer it
lies in memory, above it in the bank, where slot and address agree modulo the size of the bank. `FRAME`
opens a frame and spills the oldest registers when the bank would overflow; a return refills the
registers of the caller that were spilled.

The two counts are seven-bit differences between the frame pointer and the stack pointer's slot, so
they stay below half the range of the frame pointer.

Main statements: `Cpu.spillCount_le` and `Cpu.refillCount_le`, both counts fit the bank.
-/

namespace E1Machine

namespace Cpu

/-- How many registers must be spilled: so many that the current frame ends at most 54 slots above the
stack pointer, which leaves ten for an entry. -/
def spillCount (c : Cpu) : Nat :=
  (-(stackSlot c.regs.sp + 54 - c.status.fp - BitVec.ofNat 7 c.status.frameLength).toInt).toNat

/-- How many registers must be refilled: so many that the stack pointer comes down to the frame. -/
def refillCount (c : Cpu) : Nat := (-(c.status.fp - stackSlot c.regs.sp).toInt).toNat

/-- A count that is the negative of a signed seven-bit number is at most sixty-four. -/
theorem count_le (difference : BitVec 7) : (-difference.toInt).toNat ≤ 64 := by
  have least := BitVec.le_toInt difference
  omega

/-- No more registers are spilled than the bank has. -/
theorem spillCount_le (c : Cpu) : c.spillCount ≤ 64 := count_le _

/-- No more registers are refilled than the bank has. -/
theorem refillCount_le (c : Cpu) : c.refillCount ≤ 64 := count_le _

/-- Moves the frame pointer back and sets the frame length. -/
def reframe (c : Cpu) (back length : BitVec 4) : Cpu :=
  c.modifyStatus fun s => { s with fp := s.fp - back.setWidth 7, fl := length, m := false }

/-- Resumes at the stacked address with the stacked status, whose supervisor flag is bit 0 of the
address. -/
def resume (c : Cpu) (address saved : Word) : Cpu :=
  let status := { Status.ofBits saved with s := address.getLsbD 0, ilc := 0 }
  { ((c.jump address).modifyStatus fun _ => status).block 1 with length := 0 }

/-- Whether a return from `old` to `new` breaks privilege: it enters supervisor state, or locks
interrupts in user state. -/
def breaksPrivilege (old new : Status) : Bool :=
  (!old.s && new.s) || (!new.s && !old.l && new.l)

end Cpu

namespace Machine

variable {β : Type} [Bus β]

/-- Stores the register at the stack pointer's slot in memory and raises the stack pointer. -/
def spill : Exec β Unit := do
  let c ← getCpu
  let sp := c.regs.sp
  onBus (Bus.writeWord (alignWord sp) (c.regs.localAt (stackCell sp)))
  modifyCpu (·.modifyRegs (·.setSp (sp + 4)))

/-- Lowers the stack pointer and loads the register at its slot from memory. -/
def refill : Exec β Unit := do
  let c ← getCpu
  let sp := c.regs.sp - 4
  modifyCpu (·.modifyRegs (·.setSp sp))
  let value ← onBus (Bus.readWord sp)
  modifyCpu (·.modifyRegs (·.setLocalAt (stackCell sp) value))

/-- Repeats an action. -/
def times : Nat → Exec β Unit → Exec β Unit
  | 0, _ => pure ()
  | n + 1, action => do
    action
    times n action

/-- Opens a frame. A spill that starts at or above the upper stack bound raises a frame error. -/
def frame (back length : BitVec 4) : Exec β Unit := do
  modifyCpu (·.reframe back length)
  let c ← getCpu
  let overflows := 0 < c.spillCount && (c.regs.global Global.ub).ule c.regs.sp
  times c.spillCount spill
  modifyCpu fun c => (c.raiseIf overflows .frame).charge .controlTransfer

/-- Returns to the address and status in the pair at `src`. -/
def ret (src : Operand) : Exec β Unit := do
  let old ← getCpu
  modifyCpu (·.resume (old.read src) (old.read src.next))
  let c ← getCpu
  times c.refillCount refill
  modifyCpu fun c =>
    (c.raiseIf (Cpu.breaksPrivilege old.status c.status) .privilege).charge .controlTransfer

end Machine

end E1Machine
