/-!
# Cycle costs

Each instruction and entry sequence belongs to a class with a fixed cost in processor clocks. What is
charged is the cost shifted left by the clock scale of the timer.

Main statement: `CostClass.cycles_eq`, at every scale that a timer can have the cost is the clocks times
a power of two.
-/

namespace E1Machine

/-- A class of instructions or entry sequences with one cost. -/
inductive CostClass where
  /-- Register and immediate arithmetic, logic, moves and single shifts. -/
  | alu
  /-- Shifts of register pairs, counts of leading zeros and double-word moves. -/
  | doubleAlu
  /-- A conditional branch that is not taken. -/
  | branchNotTaken
  /-- A taken relative branch. -/
  | branchTaken
  /-- A taken delayed branch. -/
  | delayedBranchTaken
  /-- Returns, calls, frames and the issue of traps. -/
  | controlTransfer
  /-- A load or store of at most one word. -/
  | memoryWord
  /-- A load or store of two words. -/
  | memoryDouble
  /-- A load or store through the stack. -/
  | memoryStack
  /-- A single product of two factors of sixteen bits. -/
  | mulShort
  /-- Any other single product. -/
  | mulLong
  /-- A double product of two factors of sixteen bits. -/
  | mulDoubleShort
  /-- Any other double product. -/
  | mulDoubleLong
  /-- A division. -/
  | divide
  /-- A signal-processing instruction. -/
  | extend
  /-- Entry into a trap, interrupt or exception frame. -/
  | entrySequence
  /-- Entry into a software-emulation frame. -/
  | softwareEntry
  deriving DecidableEq, Repr

namespace CostClass

/-- All classes, in the order of their table. -/
def all : List CostClass :=
  [alu, doubleAlu, branchNotTaken, branchTaken, delayedBranchTaken, controlTransfer, memoryWord,
    memoryDouble, memoryStack, mulShort, mulLong, mulDoubleShort, mulDoubleLong, divide, extend,
    entrySequence, softwareEntry]

/-- The cost in processor clocks. -/
def clocks : CostClass → Nat
  | alu | branchNotTaken | delayedBranchTaken | controlTransfer | memoryWord | extend => 1
  | doubleAlu | branchTaken | memoryDouble | entrySequence => 2
  | memoryStack | mulShort => 3
  | mulDoubleShort => 4
  | mulLong => 5
  | mulDoubleLong | softwareEntry => 6
  | divide => 36

/-- The cost in cycles at a clock scale. It is shifted into place as a signed number of sixty-four bits:
the amount of the shift counts modulo the width, and what leaves the number is lost. -/
def cycles (kind : CostClass) (scale : Nat) : Int :=
  (BitVec.ofNat 64 kind.clocks <<< (scale % 64)).toInt

/-- No class costs more than a division. -/
theorem clocks_le (kind : CostClass) : kind.clocks ≤ 36 := by
  cases kind <;> decide

/-- Every class costs at least one clock. -/
theorem clocks_pos (kind : CostClass) : 0 < kind.clocks := by
  cases kind <;> decide

/-- Up to a scale of 57 no cost leaves the number. -/
theorem cycles_eq (kind : CostClass) {scale : Nat} (h : scale < 58) :
    kind.cycles scale = (kind.clocks <<< scale : Nat) := by
  rw [Nat.shiftLeft_eq]
  have bound : kind.clocks * 2 ^ scale ≤ 36 * 2 ^ 57 :=
    Nat.mul_le_mul kind.clocks_le (Nat.pow_le_pow_right (by decide) (by omega))
  have clocks_lt : kind.clocks < 2 ^ 64 := by have := kind.clocks_le; omega
  have value : (BitVec.ofNat 64 kind.clocks <<< scale).toNat = kind.clocks * 2 ^ scale := by
    rw [BitVec.toNat_shiftLeft, BitVec.toNat_ofNat, Nat.mod_eq_of_lt clocks_lt, Nat.shiftLeft_eq,
      Nat.mod_eq_of_lt (by omega)]
  rw [cycles, Nat.mod_eq_of_lt (by omega), BitVec.toInt_eq_toNat_of_lt (by omega), value]

end CostClass

end E1Machine
