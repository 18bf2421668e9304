import E1Machine.Accumulator
import E1Machine.Condition
import E1Machine.Diagnostic
import E1Machine.Shift
import E1Machine.Transfer

/-!
# Instructions

What a decoded instruction does, with its operands resolved: extension halfwords are literals, the high
global registers that a move addresses are plain operands, and a conditional branch is either taken or
not. The effects are the concern of `E1Machine.Effect`.
-/

namespace E1Machine

/-- A source operand: a register or a literal. -/
inductive Source where
  /-- The value of a register. -/
  | register (o : Operand)
  /-- A value from the instruction. -/
  | literal (value : Word)
  deriving DecidableEq, Repr

/-- A bitwise operation. -/
inductive LogicalOp where
  | and | andNot | or | xor
  deriving DecidableEq, Repr

/-- The result of a bitwise operation. -/
def LogicalOp.apply : LogicalOp → Word → Word → Word
  | and, d, s => d &&& s
  | andNot, d, s => d &&& ~~~s
  | or, d, s => d ||| s
  | xor, d, s => d ^^^ s

/-- What a product instruction computes. -/
inductive ProductKind where
  /-- The unsigned product into a register pair. -/
  | unsignedDouble
  /-- The signed product into a register pair. -/
  | signedDouble
  /-- The low word of the product. -/
  | single
  deriving DecidableEq, Repr

/-- What a `SET` instruction stores. -/
inductive SetValue where
  /-- The stack address of the current frame. -/
  | frameAddress
  /-- A fixed value. -/
  | constant (value : Word)
  /-- One value if a condition holds, else zero. -/
  | test (condition : Condition) (met : Word)
  deriving DecidableEq, Repr

/-- The value with a `SET` code; codes from 16 on store all ones where the lower codes store one. -/
def SetValue.ofCode (n : Nat) : Option SetValue :=
  let met : Word := if n < 16 then 1 else BitVec.allOnes 32
  match n with
  | 0 => some .frameAddress
  | 2 | 18 => some (.constant met)
  | 3 => some (.constant 0)
  | _ => (Condition.ofSetCode (n % 16)).map fun condition => .test condition met

/-- A decoded instruction. -/
inductive Instruction where
  /-- Raises a range error if `dst` exceeds `src`. -/
  | check (dst src : Operand)
  /-- Copies a register pair. -/
  | moveDouble (dst src : Operand)
  /-- Returns to the address and status in the pair at `src`, and refills the frame. -/
  | ret (src : Operand)
  /-- Divides the pair at `dst` by `src`: remainder first, quotient second. -/
  | divide (dst src : Operand) (signed : Bool)
  /-- Scales an index, which may not exceed the limit if there is one. -/
  | indexMove (dst src : Operand) (scale : Nat) (limit : Option Word)
  /-- `src` masked by a literal. -/
  | mask (dst src : Operand) (mask : Word)
  /-- `src` plus a literal. -/
  | sum (dst src : Operand) (addend : Word) (signed : Bool)
  /-- `dst` plus `src`. A signed operation raises a range error on overflow. -/
  | add (dst : Operand) (src : Source) (signed : Bool)
  /-- `dst` minus `src`. -/
  | sub (dst src : Operand) (signed : Bool)
  /-- Zero minus `src`. -/
  | neg (dst src : Operand) (signed : Bool)
  /-- `dst` plus `src` plus carry. -/
  | addCarry (dst src : Operand)
  /-- `dst` minus `src` minus borrow. -/
  | subCarry (dst src : Operand)
  /-- Rounds `dst` up to even, by the carry and zero flags of the operation that cut it off. -/
  | round (dst : Operand) (signed : Bool)
  /-- Compares `dst` with `src`. -/
  | compare (dst : Operand) (src : Source)
  /-- Tests whether `dst` and `src` have no bit in common. -/
  | testBits (dst : Operand) (src : Source)
  /-- Tests whether any byte of `dst` is zero. -/
  | testZeroByte (dst : Operand)
  /-- A bitwise operation on `dst` and `src`. -/
  | logical (op : LogicalOp) (dst : Operand) (src : Source)
  /-- The complement of `src`. -/
  | complement (dst src : Operand)
  /-- Copies a register. -/
  | move (dst src : Operand)
  /-- Loads a literal. -/
  | moveImmediate (dst : Operand) (value : Word)
  /-- Raises a privilege error: user state may not move into a high global register. -/
  | privileged
  /-- Shifts a register. -/
  | shift (kind : ShiftKind) (dst : Operand) (count : Source)
  /-- Shifts a register pair. -/
  | shiftDouble (kind : ShiftKind) (dst : Operand) (count : Source)
  /-- Counts the leading zeros of `src`. -/
  | leadingZeros (dst src : Operand)
  /-- Rotates `dst` left by `src`. -/
  | rotate (dst src : Operand)
  /-- Loads data into a register or pair. -/
  | load (form : DataForm) (addressing : Addressing) (data : Operand)
  /-- Stores data from a register or pair. -/
  | store (form : DataForm) (addressing : Addressing) (data : Operand)
  /-- Advances an address register; the transfer itself is reserved. -/
  | reservedTransfer (address : Operand) (step : Word) (report : Diagnostic)
  /-- Multiplies `dst` by `src`. -/
  | multiply (kind : ProductKind) (dst src : Operand)
  /-- Stores a value that depends on the status register. -/
  | set (dst : Operand) (value : SetValue)
  /-- Enters the guest's emulation of the instructions with this high byte. -/
  | emulate (byte : Byte) (dst src : Nat)
  /-- Accumulates a product. -/
  | accumulate (function : Accumulation) (dst src : Operand)
  /-- Branches after the next instruction. -/
  | delayedBranch (offset : Word)
  /-- Branches. -/
  | branch (offset : Word)
  /-- A branch of either kind whose condition does not hold. -/
  | fallThrough
  /-- Moves the frame pointer back, sets the frame length and spills what no longer fits. -/
  | frame (back : BitVec 4) (length : BitVec 4)
  /-- Calls `src` plus a literal, with the new frame at local register `code`. -/
  | call (code : Nat) (src : Operand) (addend : Word)
  /-- Traps if the condition holds; some codes never trap. -/
  | trap (number : Nat) (condition : Option Condition)
  /-- An operand combination that the architecture leaves undefined: reported, otherwise without
  effect. -/
  | undefined (report : Diagnostic) (cost : CostClass)
  /-- A reserved code: reported, otherwise without effect; a pending delayed branch stays pending. -/
  | reserved (report : Diagnostic)
  deriving DecidableEq, Repr

/-- Whether a pending delayed branch is followed before the instruction executes. -/
def Instruction.redirects : Instruction → Bool
  | .reserved _ => false
  | _ => true

end E1Machine
