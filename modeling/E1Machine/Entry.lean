import E1Machine.Fault
import E1Machine.Interrupt

/-!
# Entries into handlers

What the processor notes each time it enters a handler of the guest: why it did, where the new frame
starts, what was stacked there, and the target of a delayed branch that was still to be followed. The
notes are for the host to see; execution does not depend on them.
-/

namespace E1Machine

/-- Why a handler is entered. -/
inductive EntryCause where
  /-- A trap instruction whose condition holds. -/
  | trap (number : Nat)
  /-- An interrupt. -/
  | interrupt (source : InterruptSource)
  /-- An exception. -/
  | exception (exception : Exception)
  /-- An instruction with this high byte, which the guest emulates. -/
  | emulation (byte : Byte)
  deriving DecidableEq, Repr

/-- Whether the entry is that of an interrupt. -/
def EntryCause.isInterrupt : EntryCause → Bool
  | interrupt _ => true
  | trap _ | exception _ | emulation _ => false

/-- An entry into a handler. -/
structure Entry where
  /-- Why the handler was entered. -/
  cause : EntryCause
  /-- The frame pointer of the new frame. -/
  frame : BitVec 7
  /-- What was stacked, from the first register of the new frame on. -/
  stacked : List Word
  /-- The target of a delayed branch that was not followed yet. -/
  target : Option Word
  deriving DecidableEq, Repr

end E1Machine
