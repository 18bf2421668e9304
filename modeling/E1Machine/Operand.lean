import E1Machine.Word

/-!
# Register operands

An operand names a register by its bank and its code. The second register of a double word is the
next one of the same bank; codes wrap at the size of the bank.
-/

namespace E1Machine

/-- The bank that an operand field addresses. -/
inductive Bank where
  /-- Global registers. -/
  | globals
  /-- Local registers, relative to the frame pointer. -/
  | locals
  deriving DecidableEq, Repr

/-- The bank that a selector bit picks. -/
def Bank.ofBit (isLocal : Bool) : Bank := if isLocal then .locals else .globals

/-- A register operand. -/
structure Operand where
  /-- The bank addressed. -/
  bank : Bank
  /-- The register code: 0 to 15 in an instruction word, more for high globals and second registers
  of pairs. -/
  code : Nat
  deriving DecidableEq, Repr

namespace Operand

/-- Whether the operand is the program counter. -/
def isPc (o : Operand) : Bool := o.bank == .globals && o.code == 0

/-- Whether the operand is the status register. -/
def isSr (o : Operand) : Bool := o.bank == .globals && o.code == 1

/-- The second register of a double word. -/
def next (o : Operand) : Operand :=
  match o.bank with
  | .globals => ⟨.globals, (o.code + 1) % 32⟩
  | .locals => ⟨.locals, (o.code + 1) % 64⟩

/-- The operand that a move addresses: with `H` set, global codes mean the upper sixteen registers. -/
def raised (o : Operand) (h : Bool) : Operand :=
  if h && o.bank == .globals then ⟨.globals, o.code + 16⟩ else o

end Operand

end E1Machine
