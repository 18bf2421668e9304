import E1Machine.Trap

/-!
# Interrupts

Seven external lines and the timer compete for recognition. The function control register enables each
of them and sets the tier at which the timer competes; a fixed ladder orders the rest.
-/

namespace E1Machine

/-- A level-sensitive external line. -/
inductive InterruptLine where
  | int1 | int2 | int3 | int4 | io1 | io2 | io3
  deriving DecidableEq, Repr

namespace InterruptLine

/-- All lines, in the order of their bits in the input status register. -/
def all : List InterruptLine := [int1, int2, int3, int4, io1, io2, io3]

/-- The number of the line, which is its bit in the input status register. -/
def index : InterruptLine → Nat
  | int1 => 0
  | int2 => 1
  | int3 => 2
  | int4 => 3
  | io1 => 4
  | io2 => 5
  | io3 => 6

/-- The line with a number. Input 7 is wired to no interrupt. -/
def ofIndex (index : Nat) : Option InterruptLine := all[index]?

/-- The bit of the line in the input status register. -/
def mask (line : InterruptLine) : Word := 1#32 <<< line.index

/-- The trap that the line raises. -/
def trapNumber : InterruptLine → Nat
  | int1 => TrapNumber.int1
  | int2 => TrapNumber.int2
  | int3 => TrapNumber.int3
  | int4 => TrapNumber.int4
  | io1 => TrapNumber.io1
  | io2 => TrapNumber.io2
  | io3 => TrapNumber.io3

/-- A line is found again by its index. -/
theorem ofIndex_index (line : InterruptLine) : ofIndex line.index = some line := by
  cases line <;> rfl

end InterruptLine

/-- What can interrupt the processor. -/
inductive InterruptSource where
  /-- A compare match of the timer. -/
  | timer
  /-- An external line. -/
  | line (line : InterruptLine)
  deriving DecidableEq, Repr

namespace InterruptSource

/-- The trap that the source raises. -/
def trapNumber : InterruptSource → Nat
  | timer => TrapNumber.timer
  | line l => l.trapNumber

/-- Whether the source asks for recognition. -/
def isPending (isr : Word) (timerPending : Bool) : InterruptSource → Bool
  | timer => timerPending
  | line l => isr.getLsbD l.index

end InterruptSource

/-- One rung of the ladder: the source is enabled there when the masked control bits are as expected. -/
structure LadderRung where
  /-- The source tested. -/
  source : InterruptSource
  /-- The bits of the function control register examined. -/
  mask : Word
  /-- What those bits must be. -/
  expected : Word
  deriving DecidableEq, Repr

/-- Whether the rung's source is enabled there. -/
def LadderRung.enabled (rung : LadderRung) (fcr : Word) : Bool := fcr &&& rung.mask == rung.expected

/-- The bits that set the timer's tier and inhibit it. -/
def timerTierMask : Word := 0x00b00000

/-- The recognition order, highest priority first. The timer stands on the rung of its tier. -/
def interruptLadder : List LadderRung :=
  [⟨.line .io3, 0x00000500, 0x00000400⟩,
   ⟨.timer, timerTierMask, 0x00300000⟩,
   ⟨.line .int1, 0x10000000, 0⟩,
   ⟨.timer, timerTierMask, 0x00200000⟩,
   ⟨.line .int2, 0x20000000, 0⟩,
   ⟨.timer, timerTierMask, 0x00100000⟩,
   ⟨.line .int3, 0x40000000, 0⟩,
   ⟨.timer, timerTierMask, 0⟩,
   ⟨.line .int4, 0x80000000, 0⟩,
   ⟨.line .io1, 0x00000005, 0x00000004⟩,
   ⟨.line .io2, 0x00000050, 0x00000040⟩]

/-- The source to recognize: the first on the ladder that is pending and enabled. -/
def resolveInterrupt (isr fcr : Word) (timerPending : Bool) : Option InterruptSource :=
  (interruptLadder.find? fun rung =>
    rung.source.isPending isr timerPending && rung.enabled fcr).map (·.source)

end E1Machine
