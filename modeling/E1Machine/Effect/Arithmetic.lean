import E1Machine.Adder
import E1Machine.Cpu.Entry
import E1Machine.Instruction

/-!
# Arithmetic, logic and moves

The effects of the instructions that compute in registers. Each is a function on the processor: none
of them can use the bus. A result is written first and the flags are set after it, so that flags win
where the status register itself is the destination; an exception comes last.
-/

namespace E1Machine

namespace Cpu

/-! ## Operands -/

/-- The value of a source operand. -/
def source (c : Cpu) : Source → Word
  | .register o => c.read o
  | .literal value => value

/-- The value of a source operand in arithmetic. -/
def sourceArith (c : Cpu) : Source → Word
  | .register o => c.readArith o
  | .literal value => value

/-- The value of an operand added with carry: the status register then stands for the carry alone. -/
def readBeyondCarry (c : Cpu) (o : Operand) : Word := if o.isSr then 0 else c.read o

/-- The value of a register pair. -/
def readPair (c : Cpu) (o : Operand) : Double := c.read o ++ c.read o.next

/-- Writes a register pair, the upper word first. -/
def writePair (c : Cpu) (o : Operand) (value : Double) : Cpu :=
  (c.write o (highWord value)).write o.next (lowWord value)

/-- Writes a result and sets flags by it; a result in the program counter is a taken branch. -/
def assign (c : Cpu) (dst : Operand) (value : Word) (flags : Status → Status) : Cpu :=
  let c := (c.write dst value).modifyStatus flags
  if dst.isPc then c.modifyStatus fun s => { s with m := false } else c

/-- Raises an exception if a condition holds. -/
def raiseIf (c : Cpu) (condition : Bool) (exception : Exception) : Cpu :=
  if condition then c.raise exception else c

/-! ## Sums and differences -/

/-- Finishes a sum or difference. A signed operation leaves the carry alone and raises a range error on
overflow. -/
def finishAdder (c : Cpu) (dst : Operand) (r : AdderResult) (signed : Bool) : Cpu :=
  if signed then ((c.assign dst r.value r.applySigned).charge .alu).raiseIf r.overflow .range
  else (c.assign dst r.value r.apply).charge .alu

/-- `dst := dst + src`. -/
def add (c : Cpu) (dst : Operand) (src : Source) (signed : Bool) : Cpu :=
  c.finishAdder dst (addWithCarry (c.read dst) (c.sourceArith src) false) signed

/-- `dst := dst - src`. -/
def sub (c : Cpu) (dst src : Operand) (signed : Bool) : Cpu :=
  c.finishAdder dst (subWithBorrow (c.read dst) (c.readArith src) false) signed

/-- `dst := 0 - src`. -/
def neg (c : Cpu) (dst src : Operand) (signed : Bool) : Cpu :=
  c.finishAdder dst (subWithBorrow 0 (c.readArith src) false) signed

/-- `dst := src + addend`. -/
def sum (c : Cpu) (dst src : Operand) (addend : Word) (signed : Bool) : Cpu :=
  c.finishAdder dst (addWithCarry (c.readArith src) addend false) signed

/-- `dst := dst + 1` if the part that was cut off is more than half, or half of an odd `dst`. -/
def round (c : Cpu) (dst : Operand) (signed : Bool) : Cpu :=
  let d := c.read dst
  let up := c.status.c && (!c.status.z || d.getLsbD 0)
  c.finishAdder dst (addWithCarry d (ofFlag up) false) signed

/-- `dst := dst + src + carry`, a step of a sum of several words. -/
def addCarry (c : Cpu) (dst src : Operand) : Cpu :=
  let r := addWithCarry (c.read dst) (c.readBeyondCarry src) c.status.c
  (c.assign dst r.value r.applyChained).charge .alu

/-- `dst := dst - src - borrow`, a step of a difference of several words. -/
def subCarry (c : Cpu) (dst src : Operand) : Cpu :=
  let r := subWithBorrow (c.read dst) (c.readBeyondCarry src) c.status.c
  (c.assign dst r.value r.applyChained).charge .alu

/-! ## Comparisons and tests -/

/-- Compares `dst` with `src`. -/
def compare (c : Cpu) (dst : Operand) (src : Source) : Cpu :=
  (c.modifyStatus (compareFlags (c.read dst) (c.sourceArith src))).charge .alu

/-- Sets `Z` and nothing else. -/
def setZero (c : Cpu) (z : Bool) : Cpu := (c.modifyStatus fun s => { s with z }).charge .alu

/-- `Z` tells whether `dst` and `src` have no bit in common. -/
def testBits (c : Cpu) (dst : Operand) (src : Source) : Cpu :=
  c.setZero (c.read dst &&& c.source src == 0)

/-- Whether any byte of a word is zero. -/
def hasZeroByte (w : Word) : Bool :=
  w.extractLsb' 24 8 == 0 || w.extractLsb' 16 8 == 0 || w.extractLsb' 8 8 == 0 ||
    w.extractLsb' 0 8 == 0

/-- `Z` tells whether any byte of `dst` is zero. -/
def testZeroByte (c : Cpu) (dst : Operand) : Cpu := c.setZero (hasZeroByte (c.read dst))

/-- Raises a range error if `dst` exceeds its bound `src`. The status register as bound forbids zero,
and the program counter forbids equality too. -/
def check (c : Cpu) (dst src : Operand) : Cpu :=
  let d := c.read dst
  let outside :=
    if src.isSr then d == 0
    else if src.isPc then (c.read src).ule d
    else (c.read src).ult d
  (c.raiseIf outside .range).charge .alu

/-! ## Bitwise operations -/

/-- `dst := dst op src`. -/
def logical (c : Cpu) (op : LogicalOp) (dst : Operand) (src : Source) : Cpu :=
  let value := op.apply (c.read dst) (c.source src)
  (c.assign dst value (·.setLogical value)).charge .alu

/-- `dst := ~src`. -/
def complement (c : Cpu) (dst src : Operand) : Cpu :=
  let value := ~~~c.read src
  (c.assign dst value (·.setLogical value)).charge .alu

/-- `dst := src & mask`. -/
def mask (c : Cpu) (dst src : Operand) (mask : Word) : Cpu :=
  let value := c.read src &&& mask
  ((c.write dst value).modifyStatus (·.setLogical value)).charge .alu

/-- The number of leading zeros of `src`, without flags. -/
def leadingZeros (c : Cpu) (dst src : Operand) : Cpu :=
  (c.write dst (BitVec.clz (c.read src))).charge .alu

/-! ## Moves -/

/-- The value that a move reads: nothing can be read from a write-only register, and the timer register
is read with its effect. -/
def readMoved (c : Cpu) (src : Operand) : Word × Cpu :=
  match src.bank with
  | .globals => if Global.writeOnly src.code then (0, c) else c.readGlobal src.code
  | .locals => (c.read src, c)

/-- `dst := src`. -/
def move (c : Cpu) (dst src : Operand) : Cpu :=
  let (value, c) := c.readMoved src
  (c.assign dst value (·.setResult value)).charge .alu

/-- `dst := value`. -/
def moveImmediate (c : Cpu) (dst : Operand) (value : Word) : Cpu :=
  (c.assign dst value fun s => { s.setResult value with v := false }).charge .alu

/-- Raises a privilege error in place of a move. -/
def refuseMove (c : Cpu) : Cpu := (c.raise .privilege).charge .alu

/-- Copies a register pair; the status register as source stands for zero. -/
def moveDouble (c : Cpu) (dst src : Operand) : Cpu :=
  let value := if src.isSr then 0 else c.readPair src
  ((c.writePair dst value).modifyStatus fun s =>
    { s with z := value == 0, n := value.msb }).charge .doubleAlu

/-- `dst := src` scaled, and a range error if `src` exceeds the limit. -/
def indexMove (c : Cpu) (dst src : Operand) (scale : Nat) (limit : Option Word) : Cpu :=
  let index := c.read src
  let outside := limit.any (·.ult index)
  ((c.write dst (index <<< scale)).raiseIf outside .range).charge .alu

/-- Stores a value that depends on the status register. -/
def set (c : Cpu) (dst : Operand) (value : SetValue) : Cpu :=
  let sp := c.regs.sp
  let fp := c.status.fp
  let result : Word :=
    match value with
    | .frameAddress =>
      (sp.extractLsb' 9 23 ++ fp ++ 0#2) + if sp.getLsbD 8 && !fp.msb then 0x200 else 0
    | .constant value => value
    | .test condition met => if condition.holds c.status then met else 0
  (c.write dst result).charge .alu

/-! ## Division and multiplication -/

/-- Quotient and remainder of a double word by a word, each cut to a word. -/
def quotientRemainder (dividend : Double) (divisor : Word) (signed : Bool) : Word × Word :=
  if signed then
    let divisor := divisor.signExtend 64
    (lowWord (dividend.sdiv divisor), lowWord (dividend.srem divisor))
  else
    let divisor := divisor.setWidth 64
    (lowWord (dividend / divisor), lowWord (dividend % divisor))

/-- Divides the pair at `dst` by `src`. Division by zero and signed division of a negative number raise
a range error. -/
def divide (c : Cpu) (dst src : Operand) (signed : Bool) : Cpu :=
  let divisor := c.read src
  let dividend := c.readPair dst
  let c :=
    if divisor == 0 || (signed && dividend.msb) then
      (c.modifyStatus fun s => { s with v := true }).raise .range
    else
      let (quotient, remainder) := quotientRemainder dividend divisor signed
      (c.writePair dst (remainder ++ quotient)).modifyStatus fun s =>
        { s.setResult quotient with v := false }
  c.charge .divide

/-- The cost of a product, which is less for short factors. -/
def productCost (kind : ProductKind) (d s : Word) : CostClass :=
  match kind with
  | .unsignedDouble =>
    if highHalf d == 0 && highHalf s == 0 then .mulDoubleShort else .mulDoubleLong
  | .signedDouble => if fitsSigned 16 d && fitsSigned 16 s then .mulDoubleShort else .mulDoubleLong
  | .single => if fitsSigned 16 d && fitsSigned 16 s then .mulShort else .mulLong

/-- Writes a double product and sets `Z` and `N` by it. -/
def assignProduct (c : Cpu) (dst : Operand) (product : Double) : Cpu :=
  (c.writePair dst product).modifyStatus fun s =>
    { s with z := product == 0, n := product.msb }

/-- Multiplies `dst` by `src`. -/
def multiply (c : Cpu) (kind : ProductKind) (dst src : Operand) : Cpu :=
  let d := c.read dst
  let s := c.read src
  let c :=
    match kind with
    | .unsignedDouble => c.assignProduct dst (unsignedProduct d s)
    | .signedDouble => c.assignProduct dst (signedProduct d s)
    | .single => (c.write dst (d * s)).modifyStatus (·.setResult (d * s))
  c.charge (productCost kind d s)

/-! ## Signal processing -/

/-- The accumulator. -/
def accumulator (c : Cpu) : Double :=
  c.regs.global Global.accHigh ++ c.regs.global Global.accLow

/-- Replaces the accumulator. -/
def setAccumulator (c : Cpu) (value : Double) : Cpu :=
  (c.store Global.accHigh (highWord value)).store Global.accLow (lowWord value)

/-- Accumulates. -/
def accumulate (c : Cpu) (f : Accumulation) (dst src : Operand) : Cpu :=
  (c.setAccumulator (f.apply c.accumulator (c.read dst) (c.read src))).charge .extend

end Cpu

end E1Machine
