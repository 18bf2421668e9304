import E1Machine.Cost
import E1Machine.Delay
import E1Machine.Diagnostic
import E1Machine.Entry
import E1Machine.Operand
import E1Machine.Registers
import E1Machine.Timer

/-!
# The processor

The state of a processor and the elementary steps on it: access to plain registers, redirection of the
program counter, accounting of cycles and the lockout that holds interrupts back.

Cycles are counted in one place: `cycles` is the total so far and `remaining` what is left of the slice
that runs, so spending moves both.

Main statements: `Cpu.cost_eq` and `Cpu.cost_pos`, what is charged is exact and at least one cycle.
-/

namespace E1Machine

/-- The state of a processor. -/
structure Cpu where
  /-- The register banks. -/
  regs : Registers := {}
  /-- The tick timer. -/
  timer : Timer
  /-- Where the trap table is anchored. -/
  entry : TrapEntry := .mem3
  /-- The target of a delayed branch that is not followed yet. -/
  delay : DelaySlot := {}
  /-- The address of the last instruction, or the address from which the last entry was made. -/
  lastPc : Word := 0
  /-- The length of the current instruction in halfwords. -/
  length : Nat := 1
  /-- For how many instructions no interrupt is recognized; none if not positive. -/
  lockout : Int := 0
  /-- Cycles spent since power-on. -/
  cycles : Nat := 0
  /-- Cycles left in the running slice, zero between slices. -/
  remaining : Int := 0
  /-- Instructions completed since power-on. -/
  retired : Nat := 0
  /-- The fault that stopped execution, until the next reset. -/
  fault : Option Fault := none
  /-- What was reported to the host, oldest first. -/
  reports : Array Diagnostic := #[]
  /-- The entries into handlers, oldest first. -/
  entries : Array Entry := #[]
  deriving DecidableEq

namespace Cpu

/-! ## Registers -/

/-- The status register. -/
def status (c : Cpu) : Status := c.regs.status

/-- Updates the register banks, with no effect beyond them. -/
def modifyRegs (c : Cpu) (f : Registers → Registers) : Cpu := { c with regs := f c.regs }

/-- Updates the status register, with no effect beyond it. -/
def modifyStatus (c : Cpu) (f : Status → Status) : Cpu := c.modifyRegs (·.modifyStatus f)

/-- Replaces the program counter, bit 0 cleared. -/
def setPc (c : Cpu) (target : Word) : Cpu := c.modifyRegs (·.setPc target)

/-- The value of an operand. No operand field names the timer register, whose value depends on time. -/
def read (c : Cpu) (o : Operand) : Word :=
  match o.bank with
  | .globals => c.regs.global o.code
  | .locals => c.regs.inFrame o.code

/-- The value of an operand in arithmetic, where the status register stands for its carry flag. -/
def readArith (c : Cpu) (o : Operand) : Word := if o.isSr then c.status.carry else c.read o

/-! ## Reports and accounting -/

/-- Reports to the host. -/
def report (c : Cpu) (d : Diagnostic) : Cpu := { c with reports := c.reports.push d }

/-- Spends cycles. -/
def spend (c : Cpu) (n : Nat) : Cpu :=
  { c with cycles := c.cycles + n, remaining := c.remaining - n }

/-- The cost in cycles of an instruction or entry sequence at the clock scale in force. -/
def cost (c : Cpu) (kind : CostClass) : Nat := (kind.cycles c.timer.scale.toNat).toNat

/-- Spends the cost of an instruction or entry sequence. -/
def charge (c : Cpu) (kind : CostClass) : Cpu := c.spend (c.cost kind)

/-- What is charged are the clocks of the class, shifted by the clock scale. -/
theorem cost_eq (c : Cpu) (kind : CostClass) :
    c.cost kind = kind.clocks <<< c.timer.scale.toNat := by
  have := c.timer.scale.isLt
  rw [cost, CostClass.cycles_eq kind (by omega), Int.toNat_natCast]

/-- Every class costs at least one cycle, so each instruction makes progress. -/
theorem cost_pos (c : Cpu) (kind : CostClass) : 0 < c.cost kind := by
  rw [cost_eq, Nat.shiftLeft_eq]
  exact Nat.mul_pos kind.clocks_pos (Nat.two_pow_pos _)

/-- Holds interrupts back for at least so many instructions. -/
def block (c : Cpu) (instructions : Int) : Cpu := { c with lockout := max c.lockout instructions }

/-! ## The instruction stream -/

/-- Leaves the target of a delayed branch, to be followed by the next instruction. -/
def delayTo (c : Cpu) (target : Word) : Cpu := { c with delay := c.delay.arm target }

/-- Follows a pending delayed branch. -/
def redirect (c : Cpu) : Cpu :=
  match c.delay.take with
  | (some target, delay) => { c with delay }.setPc target
  | (none, delay) => { c with delay }

/-- Transfers control and notes from where. -/
def jump (c : Cpu) (target : Word) : Cpu := { c with lastPc := c.regs.pc }.setPc target

end Cpu

end E1Machine
