import E1Machine.Effect.Arithmetic

/-!
# Transfers of control

Branches, delayed branches, calls and traps. A relative target counts from the program counter, which
stands after the instruction or at the target of the delayed branch that was just followed.
-/

namespace E1Machine

namespace Cpu

/-- Branches. -/
def branch (c : Cpu) (offset : Word) : Cpu :=
  ((c.jump (c.regs.pc + offset)).modifyStatus fun s => { s with m := false }).charge .branchTaken

/-- Leaves a branch to be followed by the next instruction, which no interrupt may precede. -/
def delayedBranch (c : Cpu) (offset : Word) : Cpu :=
  ((c.delayTo (c.regs.pc + offset)).block 2).charge .delayedBranchTaken

/-- Stacks the return address and the status register at local register `code`, opens a frame of six
registers there and jumps. The status register as base stands for zero. -/
def call (c : Cpu) (code : Nat) (src : Operand) (addend : Word) : Cpu :=
  let target := alignHalf addend + c.readBeyondCarry src
  let c := c.noteLength c.length
  let c := c.fillFrame code [c.returnPc, c.status.bits]
  let c := c.modifyStatus fun s =>
    { s with fp := s.fp + BitVec.ofNat 7 code, fl := 6, m := false }
  ((c.jump target).block 2).charge .controlTransfer

/-- Enters a trap if its condition holds. -/
def trap (c : Cpu) (number : Nat) (condition : Option Condition) : Cpu :=
  (if condition.any (·.holds c.status) then c.enterTrap number else c).charge .controlTransfer

end Cpu

end E1Machine
