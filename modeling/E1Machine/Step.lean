import E1Machine.Decoding
import E1Machine.Effect

/-!
# The instruction cycle

One instruction: fetch, decode, follow a pending delayed branch, execute, and the tasks that come after
every instruction, of which recognizing interrupts is the last. An instruction without meaning stops
the machine with a fault.
-/

namespace E1Machine

namespace Cpu

/-- Starts the instruction fetched from the program counter. -/
def begin (c : Cpu) : Cpu :=
  let address := c.regs.pc
  { c with lastPc := address, length := 1 }.setPc (address + 2)

/-- Continues after the halfwords that decoding consumed. -/
def continueAt (c : Cpu) (cursor : Cursor) : Cpu := { c.setPc cursor.pc with length := cursor.length }

/-- Stops with a fault, which is reported and kept. -/
def stop (c : Cpu) (fault : Fault) : Cpu := { c.report fault.report with fault := some fault }

/-- The least value that the lockout counts down to. -/
def lockoutFloor : Int := -0x80000000

/-- Counts an instruction, and the lockout down. -/
def retire (c : Cpu) : Cpu :=
  { c with retired := c.retired + 1, lockout := max (c.lockout - 1) lockoutFloor }

/-- The tasks after an instruction: a high flag that was set before it is consumed, its length is noted,
a single step is trapped unless a delayed branch is pending, and the lockout counts down. -/
def finish (c : Cpu) (wasHigh : Bool) : Cpu :=
  let c := (c.modifyStatus fun s => { s with h := s.h ^^ wasHigh }).noteLength c.length
  (c.raiseIf (c.status.t && c.status.p && !c.delay.isPending) .trace).retire

/-- The interrupt to take now, if any. -/
def interruptDue (c : Cpu) : Option InterruptSource :=
  if c.status.l || 0 < c.lockout then none
  else resolveInterrupt (c.regs.global Global.isr) (c.regs.global Global.fcr) c.timer.pending

/-- Takes an interrupt; the timer's is then no longer pending. -/
def takeInterrupt (c : Cpu) (source : InterruptSource) : Cpu :=
  let timer := match source with
    | .timer => { c.timer with pending := false }
    | .line _ => c.timer
  { c with timer }.enterInterrupt source

end Cpu

namespace Machine

variable {β : Type} [Bus β]

/-- Takes the interrupt that is due, if any, and acknowledges it if it came from a line. -/
def checkInterrupts : Exec β Unit := do
  match (← getCpu).interruptDue with
  | none => pure ()
  | some source =>
    modifyCpu (·.takeInterrupt source)
    match source with
    | .timer => pure ()
    | .line line => onBus (Bus.acknowledge line)

/-- Fetches and decodes the next instruction, up to where it executes. -/
def fetchNext : Exec β (Except Fault Instruction) := do
  let c ← getCpu
  let address := c.regs.pc
  let word ← onBus (Bus.fetch address)
  modifyCpu (·.begin)
  let start : Cursor := { pc := (← getCpu).regs.pc }
  let (instruction, cursor) ← onBus ((Instruction.decode address word c.status).run start)
  modifyCpu (·.continueAt cursor)
  match instruction with
  | none => return .error (.unimplementedOpcode address word)
  | some instruction =>
    if instruction.redirects then modifyCpu (·.redirect)
    return .ok instruction

/-- Completes an instruction. Interrupts are looked for when the lockout has just run out. -/
def complete (wasHigh : Bool) : Exec β Unit := do
  modifyCpu (·.finish wasHigh)
  if (← getCpu).lockout = 0 then checkInterrupts

/-- Runs one instruction. -/
def executeOne : Exec β (Except Fault Unit) := do
  let wasHigh := (← getCpu).status.h
  match ← fetchNext with
  | .error fault =>
    modifyCpu (·.stop fault)
    return .error fault
  | .ok instruction =>
    execute instruction
    complete wasHigh
    return .ok ()

end Machine

end E1Machine
