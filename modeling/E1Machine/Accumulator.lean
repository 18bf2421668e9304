import E1Machine.Word

/-!
# Signal processing

Products and sums of products into the accumulator, a pair of global registers. Operands are words or
pairs of halves; a pair of halves is a complex number with its real part in the upper half.
-/

namespace E1Machine

/-- What a signal-processing instruction does with its two operands and the accumulator. -/
inductive Accumulation where
  /-- Low word: the product. -/
  | product
  /-- Accumulator: the unsigned product. -/
  | unsignedProduct
  /-- Accumulator: the signed product. -/
  | signedProduct
  /-- Low word: plus the product. -/
  | addProduct
  /-- Accumulator: plus the signed product. -/
  | addProductDouble
  /-- Low word: minus the product. -/
  | subProduct
  /-- Accumulator: minus the signed product. -/
  | subProductDouble
  /-- Low word: plus the products of the halves. -/
  | addHalves
  /-- Accumulator: plus the products of the halves. -/
  | addHalvesDouble
  /-- High and low word: the complex product. -/
  | complexProduct
  /-- High and low word: plus the complex product. -/
  | addComplexProduct
  /-- High word: the sum of the halves; low word: their difference. -/
  | sumAndDifference
  deriving DecidableEq, Repr

/-- The signed product of two words. -/
def signedProduct (d s : Word) : Double := d.signExtend 64 * s.signExtend 64

/-- The unsigned product of two words. -/
def unsignedProduct (d s : Word) : Double := d.setWidth 64 * s.setWidth 64

/-- The signed product of two halves. -/
def halfProduct (a b : Half) : Double := a.signExtend 64 * b.signExtend 64

/-- The sum of the products of the upper and of the lower halves. -/
def halfProducts (d s : Word) : Double :=
  halfProduct (highHalf d) (highHalf s) + halfProduct (lowHalf d) (lowHalf s)

/-- The real part of a complex product. -/
def realProduct (d s : Word) : Word :=
  lowWord (halfProduct (highHalf d) (highHalf s) - halfProduct (lowHalf d) (lowHalf s))

/-- The imaginary part of a complex product. -/
def imaginaryProduct (d s : Word) : Word :=
  lowWord (halfProduct (highHalf d) (lowHalf s) + halfProduct (lowHalf d) (highHalf s))

namespace Accumulation

/-- The accumulation with a function code. -/
def ofCode (function : Half) : Option Accumulation :=
  match function.toNat with
  | 0x100 | 0x102 => some product
  | 0x104 => some unsignedProduct
  | 0x106 => some signedProduct
  | 0x10a => some addProduct
  | 0x10e => some addProductDouble
  | 0x11a => some subProduct
  | 0x11e => some subProductDouble
  | 0x02a => some addHalves
  | 0x02e => some addHalvesDouble
  | 0x046 => some complexProduct
  | 0x04e => some addComplexProduct
  | 0x086 => some sumAndDifference
  | _ => none

/-- Whether a function code names a step of a Fourier transform, which this processor lacks. -/
def isTransform (function : Half) : Bool := function == 0x096 || function == 0x296

/-- The accumulator after an instruction, from its value before and the operands. -/
def apply (f : Accumulation) (acc : Double) (d s : Word) : Double :=
  let high := highWord acc
  let low := lowWord acc
  match f with
  | product => high ++ d * s
  | unsignedProduct => E1Machine.unsignedProduct d s
  | signedProduct => E1Machine.signedProduct d s
  | addProduct => high ++ (low + lowWord (E1Machine.signedProduct d s))
  | addProductDouble => acc + E1Machine.signedProduct d s
  | subProduct => high ++ (low - lowWord (E1Machine.signedProduct d s))
  | subProductDouble => acc - E1Machine.signedProduct d s
  | addHalves => high ++ (low + lowWord (halfProducts d s))
  | addHalvesDouble => acc + halfProducts d s
  | complexProduct => realProduct d s ++ imaginaryProduct d s
  | addComplexProduct => (high + realProduct d s) ++ (low + imaginaryProduct d s)
  | sumAndDifference =>
    ((highHalf d + highHalf s) ++ (lowHalf d + lowHalf s)) ++
      ((highHalf d - highHalf s) ++ (lowHalf d - lowHalf s))

end Accumulation

end E1Machine
