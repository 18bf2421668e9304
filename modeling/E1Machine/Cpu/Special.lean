import E1Machine.Cpu.Basic

/-!
# Special registers

Some global registers act when they are written: on the timer, on the anchor of the trap table, on the
recognition of interrupts. The timer register also acts when it is read. `Cpu.setGlobal` and
`Cpu.readGlobal` are accesses with these effects, and every write of an instruction goes through the
former.
-/

namespace E1Machine

namespace Cpu

/-! ## Effects -/

/-- Schedules the callback that the timer registers call for now. -/
def reschedule (c : Cpu) : Cpu :=
  { c with
    timer := c.timer.schedule c.cycles (c.regs.global Global.tpr) (c.regs.global Global.tcr)
      (c.regs.global Global.fcr) }

/-- Replaces a global register, with no effect beyond it. -/
def store (c : Cpu) (code : Nat) (value : Word) : Cpu := c.modifyRegs (·.setGlobal code value)

/-- Applies a prescaler value now, and keeps it without its deferral bit. -/
def applyPrescale (c : Cpu) (tpr : Word) : Cpu :=
  { c with timer := c.timer.setPrescale c.cycles tpr }.store Global.tpr (clearDeferral tpr)

/-! ## Writes -/

/-- Writes the low half of the status register and holds interrupts back. -/
def writeStatus (c : Cpu) (value : Word) : Cpu := (c.modifyStatus (·.write value)).block 1

/-- Writes the timer prescaler: it takes effect at once unless its deferral bit is set. -/
def writePrescaler (c : Cpu) (value : Word) : Cpu :=
  (if prescaleDeferred value then c.store Global.tpr value else c.applyPrescale value).reschedule

/-- Writes the timer compare register; the value that it has already is no write. -/
def writeCompare (c : Cpu) (value : Word) : Cpu :=
  if c.regs.global Global.tcr = value then c
  else (c.store Global.tcr value).reschedule.block 1

/-- Writes the timer register: ticks are counted from the value on. -/
def writeTicks (c : Cpu) (value : Word) : Cpu :=
  let c := c.store Global.tr value
  { c with timer := c.timer.rebase c.cycles value }.reschedule

/-- Writes the function control register; the schedule follows a change of the timer's inhibition. -/
def writeControl (c : Cpu) (value : Word) : Cpu :=
  let changed := timerInhibited (c.regs.global Global.fcr) != timerInhibited value
  let c := c.store Global.fcr value
  (if changed then c.reschedule else c).block 1

/-- Writes the memory control register and moves the trap table, unless the selector is reserved. -/
def writeMemoryControl (c : Cpu) (value : Word) : Cpu :=
  let c := c.store Global.mcr value
  match TrapEntry.ofMcr value with
  | some entry => { c with entry }
  | none => c.report (.reservedTrapEntry (TrapEntry.selector value))

/-- Writes global register `code`, modulo 32, with its effects. -/
def setGlobal (c : Cpu) (code : Nat) (value : Word) : Cpu :=
  match code % 32 with
  | Global.pc => c.setPc value
  | Global.sr => c.writeStatus value
  | Global.sp => c.store Global.sp (alignWord value)
  | Global.ub => c.store Global.ub (alignWord value)
  | Global.tpr => c.writePrescaler value
  | Global.tcr => c.writeCompare value
  | Global.tr => c.writeTicks value
  | Global.isr => c
  | Global.fcr => c.writeControl value
  | Global.mcr => c.writeMemoryControl value
  | _ => c.store code value

/-- Writes an operand, with the effects of a special register. -/
def write (c : Cpu) (o : Operand) (value : Word) : Cpu :=
  match o.bank with
  | .globals => c.setGlobal o.code value
  | .locals => c.modifyRegs (·.setInFrame o.code value)

/-! ## Reads -/

/-- Reads the tick count. It costs half a tick if the slice has more than that left. -/
def readTicks (c : Cpu) : Word × Cpu :=
  let half := c.timer.period / 2
  (c.timer.ticksAt c.cycles, if half < c.remaining then c.spend half else c)

/-- Reads global register `code`, modulo 32, with its effects. -/
def readGlobal (c : Cpu) (code : Nat) : Word × Cpu :=
  if code % 32 = Global.tr then c.readTicks else (c.regs.global code, c)

end Cpu

end E1Machine
