import E1Machine.Status

/-!
# The adder

Sums and differences with the flags they produce. The carry of a difference is its borrow.
-/

namespace E1Machine

/-- A sum or difference with its flags. -/
structure AdderResult where
  /-- The low thirty-two bits. -/
  value : Word
  /-- Carry out of bit 31, or borrow. -/
  carry : Bool
  /-- Signed overflow. -/
  overflow : Bool
  deriving DecidableEq, Repr

/-- `a + b`, and one more with a carry. -/
def addWithCarry (a b : Word) (carry : Bool) : AdderResult :=
  let value := a + b + ofFlag carry
  { value
    carry := decide (0x100000000 ≤ a.toNat + b.toNat + carry.toNat)
    overflow := a.msb == b.msb && value.msb != a.msb }

/-- `a - b`, and one less with a borrow. -/
def subWithBorrow (a b : Word) (borrow : Bool) : AdderResult :=
  let value := a - b - ofFlag borrow
  { value
    carry := decide (a.toNat < b.toNat + borrow.toNat)
    overflow := a.msb != b.msb && value.msb != a.msb }

namespace AdderResult

/-- Sets `C`, `V`, `Z` and `N`. -/
def apply (r : AdderResult) (s : Status) : Status :=
  { s with c := r.carry, v := r.overflow, z := r.value == 0, n := r.value.msb }

/-- As `apply`, but `Z` stays set only if it was: chained steps then tell whether a number of several
words is zero. -/
def applyChained (r : AdderResult) (s : Status) : Status :=
  { r.apply s with z := s.z && r.value == 0 }

/-- Sets `V`, `Z` and `N`, as signed instructions do, which leave `C` alone. -/
def applySigned (r : AdderResult) (s : Status) : Status :=
  { s with v := r.overflow, z := r.value == 0, n := r.value.msb }

end AdderResult

/-- The flags of a comparison of `d` with `s`. -/
def compareFlags (d s : Word) (status : Status) : Status :=
  { status with
    v := (subWithBorrow d s false).overflow, z := d == s, n := d.slt s, c := d.ult s }

end E1Machine
