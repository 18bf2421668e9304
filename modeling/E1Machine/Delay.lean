import E1Machine.Word

/-!
# The delay slot

A taken delayed branch does not redirect the program counter itself: it leaves its target here, and
the next instruction takes the target once its operands are fetched.
-/

namespace E1Machine

/-- The target of a delayed branch that has not been followed yet. -/
structure DelaySlot where
  /-- The pending target. -/
  target : Option Word := none
  deriving DecidableEq, Repr

namespace DelaySlot

/-- Leaves a target, in place of any earlier one. -/
def arm (_ : DelaySlot) (target : Word) : DelaySlot := ⟨some target⟩

/-- Whether a target is pending. -/
def isPending (d : DelaySlot) : Bool := d.target.isSome

/-- The pending target, and the slot without it. -/
def take (d : DelaySlot) : Option Word × DelaySlot := (d.target, ⟨none⟩)

end DelaySlot

end E1Machine
