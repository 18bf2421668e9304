import E1Machine.Cpu.Entry
import E1Machine.Device

/-!
# The processor as its host sees it

What a host does to a processor between slices: power-on and reset, driving the external lines, letting
time pass, the timer callback, and an export of the state for display.
-/

namespace E1Machine

namespace Cpu

/-! ## Power-on and reset -/

/-- The processor of a device, as it is before the first reset. -/
def powerOn (config : Config) : Cpu := { timer := { scaleMask := config.clockScaleMask } }

/-- The prescaler value that reset loads: clock scale 3, two clocks to the tick. -/
def resetPrescaler : Word := 0x0c000000

/-- The status register with which the reset handler starts. -/
def resetStatus (s : Status) : Status :=
  { s with fp := 0, fl := 2, m := false, t := false, l := true, s := true }

/-- Resets the processor. The control registers are written with their effects; the other registers
and the tick count survive. -/
def reset (c : Cpu) : Cpu :=
  let c := { c with
    timer := { c.timer.resetPeriod with pending := false }
    entry := .mem3
    delay := {}
    fault := none }
  let c := c.setGlobal Global.bcr (BitVec.allOnes 32)
  let c := c.setGlobal Global.mcr (BitVec.allOnes 32)
  let c := c.setGlobal Global.fcr (BitVec.allOnes 32)
  let c := c.setGlobal Global.tpr resetPrescaler
  let c := (c.setPc (c.entry.vector TrapNumber.reset)).modifyStatus resetStatus
  let c := c.fillFrame 0 [c.returnPc, c.status.bits]
  { c with cycles := c.cycles + c.cost .entrySequence }

/-! ## Lines and time -/

/-- The number of input lines: the interrupt lines and one that is wired to no interrupt. -/
def inputCount : Nat := 8

/-- Drives an input line, which is a bit of the input status register. -/
def setInput (c : Cpu) (line : Nat) (on : Bool) : Cpu :=
  if line < inputCount then
    let mask := 1#32 <<< line
    let isr := c.regs.global Global.isr
    c.store Global.isr (if on then isr ||| mask else isr &&& ~~~mask)
  else c.report (.inputLineOutOfRange line)

/-- Drives an external interrupt line. -/
def setLine (c : Cpu) (line : InterruptLine) (on : Bool) : Cpu := c.setInput line.index on

/-- Lets time pass without executing anything. -/
def advance (c : Cpu) (cycles : Nat) : Cpu := { c with cycles := c.cycles + cycles }

/-- The cycle at which the timer wants its callback. -/
def nextDeadline (c : Cpu) : Option Nat := c.timer.deadline.map (·.atCycle)

/-- The callback of the timer: applies a deferred prescale change, then makes the compare match pending
if the tick count has reached the compare value, and reschedules if it has not. -/
def timerExpired (c : Cpu) : Cpu :=
  match c.timer.takeDeadline with
  | (none, _) => c
  | (some deadline, timer) =>
    let c := { c with timer }
    let c := if deadline.reloadPrescale then c.applyPrescale (c.regs.global Global.tpr) else c
    if (c.timer.ticksAt c.cycles - c.regs.global Global.tcr).msb then c.reschedule
    else { c with timer := { c.timer with pending := true } }

/-- Makes the callback if it is due. -/
def serviceTimer (c : Cpu) : Cpu :=
  match c.nextDeadline with
  | some cycle => if cycle ≤ c.cycles then c.timerExpired else c
  | none => c

/-! ## Export -/

/-- An export of the state for display. -/
structure Snapshot where
  /-- The global registers, the status register in place 1. -/
  globals : List Word
  /-- The local registers by slot. -/
  locals : List Word
  /-- The sixteen registers of the current frame. -/
  window : List Word
  /-- The text of the status register. -/
  flags : String
  /-- Where the trap table is anchored. -/
  entry : TrapEntry
  /-- Whether a timer interrupt waits for recognition. -/
  timerPending : Bool
  /-- The pending target of a delayed branch. -/
  delayTarget : Option Word
  /-- Cycles spent. -/
  cycles : Nat
  deriving DecidableEq, Repr

/-- Exports the state. -/
def snapshot (c : Cpu) : Snapshot where
  globals := c.regs.globalList
  locals := c.regs.localList
  window := c.regs.window
  flags := c.status.text
  entry := c.entry
  timerPending := c.timer.pending
  delayTarget := c.delay.target
  cycles := c.cycles

end Cpu

end E1Machine
