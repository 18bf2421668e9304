import E1Machine.Trap
import E1Machine.Text.Hex

/-!
# Faults and exceptions

A fault stops the processor and is reported to the host. An exception stays inside the guest: it enters
a frame through the trap table.
-/

namespace E1Machine

/-- What stops execution. -/
inductive Fault where
  /-- An instruction without meaning on this processor. -/
  | unimplementedOpcode (pc : Word) (opcode : Half)
  deriving DecidableEq, Repr

namespace Fault

/-- The address of the instruction at fault. -/
def pc : Fault → Word
  | unimplementedOpcode pc _ => pc

/-- The instruction word at fault. -/
def opcode : Fault → Half
  | unimplementedOpcode _ opcode => opcode

/-- The report. -/
def message : Fault → String
  | unimplementedOpcode pc opcode =>
    "unimplemented opcode " ++ paddedHex 4 opcode.toNat ++ " at pc " ++ paddedHex 8 pc.toNat

end Fault

/-- What interrupts the guest from inside. -/
inductive Exception where
  /-- Overflow, a violated bound, an unrepresentable store or a division error. -/
  | range
  /-- A write to a high global register or a return that user state may not make. -/
  | privilege
  /-- A spill that crossed the upper stack bound. -/
  | frame
  /-- A single step. -/
  | trace
  deriving DecidableEq, Repr

namespace Exception

/-- All exceptions. -/
def all : List Exception := [range, privilege, frame, trace]

/-- The trap whose vector receives the exception. -/
def trapNumber : Exception → Nat
  | range | privilege | frame => TrapNumber.error
  | trace => TrapNumber.trace

end Exception

end E1Machine
