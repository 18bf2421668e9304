import E1Machine.Status

/-!
# Shifts

Shifts of words and register pairs, with the last bit shifted out and, for left shifts, whether the
signed value survived.
-/

namespace E1Machine

/-- Direction and fill of a shift. -/
inductive ShiftKind where
  /-- Right, filled with zeros. -/
  | logical
  /-- Right, filled with the sign. -/
  | arithmetic
  /-- Left. -/
  | left
  deriving DecidableEq, Repr

/-- A shifted value with its flags. -/
structure Shifted (w : Nat) where
  /-- The value. -/
  value : BitVec w
  /-- The last bit shifted out. -/
  carry : Bool
  /-- Whether a left shift lost the signed value. -/
  overflow : Bool
  deriving DecidableEq, Repr

/-- Shifts by `n` places, `n` less than the width. -/
def ShiftKind.shift {w : Nat} (kind : ShiftKind) (value : BitVec w) (n : Nat) : Shifted w :=
  match kind with
  | .logical => ⟨value >>> n, n != 0 && value.getLsbD (n - 1), false⟩
  | .arithmetic => ⟨value.sshiftRight n, n != 0 && value.getLsbD (n - 1), false⟩
  | .left => ⟨value <<< n, n != 0 && value.getLsbD (w - n), (value <<< n).sshiftRight n != value⟩

/-- Sets the flags of a shift: `V` only by left shifts. -/
def ShiftKind.apply {w : Nat} (kind : ShiftKind) (r : Shifted w) (s : Status) : Status :=
  { s with
    c := r.carry
    z := r.value == 0
    n := r.value.msb
    v := if kind = .left then r.overflow else s.v }

end E1Machine
