import E1Machine.Effect.Arithmetic

/-!
# Shifts and rotation

The effects of shifts on registers and register pairs. A count is taken modulo the width.
-/

namespace E1Machine

namespace Cpu

/-- Shifts a register. -/
def shift (c : Cpu) (kind : ShiftKind) (dst : Operand) (count : Source) : Cpu :=
  let r := kind.shift (c.read dst) ((c.source count).toNat % 32)
  ((c.write dst r.value).modifyStatus (kind.apply r)).charge .alu

/-- Shifts a register pair. -/
def shiftDouble (c : Cpu) (kind : ShiftKind) (dst : Operand) (count : Source) : Cpu :=
  let r := kind.shift (c.readPair dst) ((c.source count).toNat % 64)
  ((c.writePair dst r.value).modifyStatus (kind.apply r)).charge .alu

/-- Rotates `dst` left by `src`. The carry is the bit that came round last, and `V` is that of a left
shift by as much. -/
def rotate (c : Cpu) (dst src : Operand) : Cpu :=
  let n := (c.read src).toNat % 32
  let d := c.read dst
  let value := d.rotateLeft n
  ((c.write dst value).modifyStatus fun s =>
    { s.setResult value with
      c := n != 0 && value.getLsbD 0
      v := (ShiftKind.left.shift d n).overflow }).charge .alu

end Cpu

end E1Machine
