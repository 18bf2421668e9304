import E1Machine.Proofs.Checked.Processor

/-!
# Checked effects

The effects of the instructions that compute in registers, with checked numbers. Each reads its operands, computes
and writes as the exact effect does, and fails where a number does not fit; each lemma says that on a sound
processor it gives what the exact effect gives, and that an instruction makes at most two charges.

An instruction that names a register pair is checked too for the code of the second register.
-/

namespace E1Machine

namespace Checked

/-! ## Operands -/

/-- The second register of a double word. -/
def next (o : Operand) : Option Operand := do
  let code ← unsigned 8 (o.code + 1)
  match o.bank with
  | .globals => return ⟨.globals, code % 32⟩
  | .locals => return ⟨.locals, code % 64⟩

/-- An operand of arithmetic: the status register stands for its carry flag. -/
def readArith (c : Cpu) (o : Operand) : Option Word := if o.isSr then some c.status.carry else read c o

/-- An operand that is zero where it names the status register. -/
def readBeyondCarry (c : Cpu) (o : Operand) : Option Word := if o.isSr then some 0 else read c o

/-- The word that a source supplies. -/
def source (c : Cpu) : Source → Option Word
  | .register o => read c o
  | .literal value => some value

/-- The word that a source supplies to arithmetic. -/
def sourceArith (c : Cpu) : Source → Option Word
  | .register o => readArith c o
  | .literal value => some value

/-- The double word in a pair of registers. -/
def readPair (c : Cpu) (o : Operand) : Option Double := do
  let high ← read c o
  let low ← read c (← next o)
  return high ++ low

/-- Writes a double word to a pair of registers, the high word first. -/
def writePair (span : Span) (c : Cpu) (o : Operand) (value : Double) : Option Cpu := do
  let c ← write span c o (highWord value)
  write span c (← next o) (lowWord value)

/-- Writes a result with its flags, and clears `M` if that is a jump. -/
def assign (span : Span) (c : Cpu) (dst : Operand) (value : Word) (flags : Status → Status) :
    Option Cpu := do
  let c := (← write span c dst value).modifyStatus flags
  return if dst.isPc then c.modifyStatus fun s => { s with m := false } else c

variable {span : Span} {n : Nat} {c : Cpu}

/-- A register that an instruction can name has a second one after it. -/
lemma next_eq {o : Operand} (small : o.code < 32) : next o = some o.next := by
  refine proceeds (unsigned_eq (by omega)) ?_
  unfold Operand.next
  cases o.bank <;> rfl

/-- An operand of arithmetic can be read. -/
lemma readArith_eq (c : Cpu) (o : Operand) : readArith c o = some (c.readArith o) := by
  unfold readArith Cpu.readArith
  split
  · rfl
  · exact read_eq c o

/-- An operand beside the carry can be read. -/
lemma readBeyondCarry_eq (c : Cpu) (o : Operand) : readBeyondCarry c o = some (c.readBeyondCarry o) := by
  unfold readBeyondCarry Cpu.readBeyondCarry
  split
  · rfl
  · exact read_eq c o

/-- Every source supplies a word. -/
lemma source_eq (c : Cpu) (src : Source) : source c src = some (c.source src) := by
  cases src with
  | register o => exact read_eq c o
  | literal value => rfl

/-- Every source supplies a word to arithmetic. -/
lemma sourceArith_eq (c : Cpu) (src : Source) : sourceArith c src = some (c.sourceArith src) := by
  cases src with
  | register o => exact readArith_eq c o
  | literal value => rfl

/-- Every pair that an instruction can name can be read. -/
lemma readPair_eq (c : Cpu) {o : Operand} (small : o.code < 32) : readPair c o = some (c.readPair o) :=
  proceeds (read_eq c o) (proceeds (next_eq small) (proceeds (read_eq c o.next) rfl))

/-- Every pair that an instruction can name can be written. -/
lemma writePair_gives (s : Sound span n c) {o : Operand} (small : o.code < 32) (value : Double) :
    Gives span n (writePair span c o value) (c.writePair o value) :=
  .bind (write_gives s o _) fun s => .after (next_eq small) (write_gives s o.next _)

/-- Every result can be assigned. -/
lemma assign_gives (s : Sound span n c) (dst : Operand) (value : Word) (flags : Status → Status) :
    Gives span n (assign span c dst value flags) (c.assign dst value flags) := by
  refine .bind (write_gives s dst value) fun s => ⟨rfl, ?_⟩
  unfold Cpu.assign
  dsimp only
  split
  · exact (s.modifyStatus flags).modifyStatus _
  · exact s.modifyStatus flags

/-! ## Sums and differences -/

/-- Ends an addition or a subtraction, with a range error if a signed one overflows. -/
def finishAdder (span : Span) (c : Cpu) (dst : Operand) (r : AdderResult) (signed : Bool) : Option Cpu := do
  if signed then
    let c ← assign span c dst r.value r.applySigned
    let c ← charge c .alu
    raiseIf c r.overflow .range
  else
    let c ← assign span c dst r.value r.apply
    charge c .alu

/-- Adds a source to a register. -/
def add (span : Span) (c : Cpu) (dst : Operand) (src : Source) (signed : Bool) : Option Cpu := do
  let r ← addWithCarry (← read c dst) (← sourceArith c src) false
  finishAdder span c dst r signed

/-- Subtracts one register from another. -/
def sub (span : Span) (c : Cpu) (dst src : Operand) (signed : Bool) : Option Cpu := do
  let r := subWithBorrow (← read c dst) (← readArith c src) false
  finishAdder span c dst r signed

/-- Negates a register. -/
def neg (span : Span) (c : Cpu) (dst src : Operand) (signed : Bool) : Option Cpu := do
  let r := subWithBorrow 0 (← readArith c src) false
  finishAdder span c dst r signed

/-- Adds a register and an immediate word. -/
def sum (span : Span) (c : Cpu) (dst src : Operand) (addend : Word) (signed : Bool) : Option Cpu := do
  let r ← addWithCarry (← readArith c src) addend false
  finishAdder span c dst r signed

/-- Rounds a register up by the carry that a shift has left. -/
def round (span : Span) (c : Cpu) (dst : Operand) (signed : Bool) : Option Cpu := do
  let d ← read c dst
  let up := c.status.c && (!c.status.z || d.getLsbD 0)
  let r ← addWithCarry d (ofFlag up) false
  finishAdder span c dst r signed

/-- Adds a register and the carry flag. -/
def addCarry (span : Span) (c : Cpu) (dst src : Operand) : Option Cpu := do
  let r ← addWithCarry (← read c dst) (← readBeyondCarry c src) c.status.c
  let c ← assign span c dst r.value r.applyChained
  charge c .alu

/-- Subtracts a register and the carry flag. -/
def subCarry (span : Span) (c : Cpu) (dst src : Operand) : Option Cpu := do
  let r := subWithBorrow (← read c dst) (← readBeyondCarry c src) c.status.c
  let c ← assign span c dst r.value r.applyChained
  charge c .alu

/-- A computation that makes a charge less makes no more. -/
lemma Gives.less {x : Option Cpu} (given : Gives span (n + 1) x c) : Gives span n x c :=
  ⟨given.eq, given.sound.less (Nat.le_succ n)⟩

/-- A charge after a computation is made where there is room for it. -/
lemma Gives.charge {x : Option Cpu} (given : Gives span (n + 1) x c) (kind : CostClass) :
    Gives span n (x >>= fun c => Checked.charge c kind) (c.charge kind) :=
  .bind given fun s => charge_gives s kind

section

variable (s : Sound span (n + 2) c)
include s

/-- The end of an addition never fails. -/
lemma finishAdder_gives (dst : Operand) (r : AdderResult) (signed : Bool) :
    Gives span n (finishAdder span c dst r signed) (c.finishAdder dst r signed) := by
  unfold finishAdder Cpu.finishAdder
  split
  · exact .bind (assign_gives s dst r.value r.applySigned) fun s =>
      .bind (charge_gives s .alu) fun s => raiseIf_gives s r.overflow .range
  · exact ((assign_gives s dst r.value r.apply).charge .alu).less

/-- An addition never fails. -/
lemma add_gives (dst : Operand) (src : Source) (signed : Bool) :
    Gives span n (add span c dst src signed) (c.add dst src signed) :=
  .after (read_eq c dst) (.after (sourceArith_eq c src)
    (.after (addWithCarry_eq _ _ _) (finishAdder_gives s dst _ signed)))

/-- A subtraction never fails. -/
lemma sub_gives (dst src : Operand) (signed : Bool) :
    Gives span n (sub span c dst src signed) (c.sub dst src signed) :=
  .after (read_eq c dst) (.after (readArith_eq c src) (finishAdder_gives s dst _ signed))

/-- A negation never fails. -/
lemma neg_gives (dst src : Operand) (signed : Bool) :
    Gives span n (neg span c dst src signed) (c.neg dst src signed) :=
  .after (readArith_eq c src) (finishAdder_gives s dst _ signed)

/-- A sum with an immediate word never fails. -/
lemma sum_gives (dst src : Operand) (addend : Word) (signed : Bool) :
    Gives span n (sum span c dst src addend signed) (c.sum dst src addend signed) :=
  .after (readArith_eq c src) (.after (addWithCarry_eq _ _ _) (finishAdder_gives s dst _ signed))

/-- A rounding never fails. -/
lemma round_gives (dst : Operand) (signed : Bool) :
    Gives span n (round span c dst signed) (c.round dst signed) :=
  .after (read_eq c dst) (.after (addWithCarry_eq _ _ _) (finishAdder_gives s dst _ signed))

end

section

variable (s : Sound span (n + 1) c)
include s

/-- An addition with carry never fails. -/
lemma addCarry_gives (dst src : Operand) :
    Gives span n (addCarry span c dst src) (c.addCarry dst src) :=
  .after (read_eq c dst) (.after (readBeyondCarry_eq c src) (.after (addWithCarry_eq _ _ _)
    ((assign_gives s dst _ _).charge .alu)))

/-- A subtraction with borrow never fails. -/
lemma subCarry_gives (dst src : Operand) :
    Gives span n (subCarry span c dst src) (c.subCarry dst src) :=
  .after (read_eq c dst) (.after (readBeyondCarry_eq c src) ((assign_gives s dst _ _).charge .alu))

end

/-! ## Comparisons and tests -/

/-- Compares a register with a source. -/
def compare (c : Cpu) (dst : Operand) (src : Source) : Option Cpu := do
  let flags := compareFlags (← read c dst) (← sourceArith c src)
  charge (c.modifyStatus flags) .alu

/-- Sets the zero flag alone. -/
def setZero (c : Cpu) (z : Bool) : Option Cpu := charge (c.modifyStatus fun s => { s with z }) .alu

/-- Tests the bits that a register and a source have in common. -/
def testBits (c : Cpu) (dst : Operand) (src : Source) : Option Cpu := do
  setZero c ((← read c dst) &&& (← source c src) == 0)

/-- Tests whether a register has a byte that is zero. -/
def testZeroByte (c : Cpu) (dst : Operand) : Option Cpu := do
  setZero c (Cpu.hasZeroByte (← read c dst))

/-- Checks a register against a bound, or against zero. -/
def check (c : Cpu) (dst src : Operand) : Option Cpu := do
  let d ← read c dst
  let bound ← read c src
  let outside :=
    if src.isSr then d == 0
    else if src.isPc then bound.ule d
    else bound.ult d
  let c ← raiseIf c outside .range
  charge c .alu

/-- A check never fails. -/
lemma check_gives (s : Sound span (n + 2) c) (dst src : Operand) :
    Gives span n (check c dst src) (c.check dst src) :=
  .after (read_eq c dst) (.after (read_eq c src) ((raiseIf_gives s _ .range).charge .alu))

section

variable (s : Sound span (n + 1) c)
include s

/-- A comparison never fails. -/
lemma compare_gives (dst : Operand) (src : Source) :
    Gives span n (compare c dst src) (c.compare dst src) :=
  .after (read_eq c dst) (.after (sourceArith_eq c src) (charge_gives (s.modifyStatus _) .alu))

/-- The zero flag can always be set. -/
lemma setZero_gives (z : Bool) : Gives span n (setZero c z) (c.setZero z) :=
  charge_gives (s.modifyStatus _) .alu

/-- A test of bits never fails. -/
lemma testBits_gives (dst : Operand) (src : Source) :
    Gives span n (testBits c dst src) (c.testBits dst src) :=
  .after (read_eq c dst) (.after (source_eq c src) (setZero_gives s _))

/-- A test for a byte that is zero never fails. -/
lemma testZeroByte_gives (dst : Operand) :
    Gives span n (testZeroByte c dst) (c.testZeroByte dst) :=
  .after (read_eq c dst) (setZero_gives s _)

end

/-! ## Bitwise operations and moves -/

/-- Combines a register and a source bit by bit. -/
def logical (span : Span) (c : Cpu) (op : LogicalOp) (dst : Operand) (src : Source) : Option Cpu := do
  let value := op.apply (← read c dst) (← source c src)
  let c ← assign span c dst value (·.setLogical value)
  charge c .alu

/-- Complements a register. -/
def complement (span : Span) (c : Cpu) (dst src : Operand) : Option Cpu := do
  let value := ~~~(← read c src)
  let c ← assign span c dst value (·.setLogical value)
  charge c .alu

/-- Masks a register with an immediate word. -/
def mask (span : Span) (c : Cpu) (dst src : Operand) (mask : Word) : Option Cpu := do
  let value := (← read c src) &&& mask
  let c ← write span c dst value
  charge (c.modifyStatus (·.setLogical value)) .alu

/-- Counts the leading zeros of a register. -/
def leadingZeros (span : Span) (c : Cpu) (dst src : Operand) : Option Cpu := do
  let c ← write span c dst (BitVec.clz (← read c src))
  charge c .alu

/-- Whether a move reads a register as zero: a mask is shifted to the register's place. -/
def writeOnly (code : Nat) : Option Bool :=
  if code < 32 then do
    let code ← amount 32 code
    return Global.writeOnly code
  else some false

/-- The word of a register that is moved, which for the tick count may take time. -/
def readMoved (span : Span) (c : Cpu) (src : Operand) : Option (Word × Cpu) :=
  match src.bank with
  | .globals => do
    if ← writeOnly src.code then return (0, c)
    else if src.code % 32 = Global.tr then readTicks span c
    else return (← global c.regs src.code, c)
  | .locals => do
    return (← read c src, c)

/-- Moves a register. -/
def move (span : Span) (c : Cpu) (dst src : Operand) : Option Cpu := do
  let (value, c) ← readMoved span c src
  let c ← assign span c dst value (·.setResult value)
  charge c .alu

/-- Moves an immediate word. -/
def moveImmediate (span : Span) (c : Cpu) (dst : Operand) (value : Word) : Option Cpu := do
  let c ← assign span c dst value fun s => { s.setResult value with v := false }
  charge c .alu

/-- Refuses a move in user state. -/
def refuseMove (c : Cpu) : Option Cpu := do
  let c ← raise c .privilege
  charge c .alu

/-- Moves a pair of registers. -/
def moveDouble (span : Span) (c : Cpu) (dst src : Operand) : Option Cpu := do
  let value ← (if src.isSr then some 0 else readPair c src)
  let c ← writePair span c dst value
  charge (c.modifyStatus fun s => { s with z := value == 0, n := value.msb }) .doubleAlu

/-- Moves a scaled index, with a range error if it is beyond its limit. -/
def indexMove (span : Span) (c : Cpu) (dst src : Operand) (scale : Nat) (limit : Option Word) :
    Option Cpu := do
  let index ← read c src
  let outside := limit.any (·.ult index)
  let scale ← amount 32 scale
  let c ← write span c dst (index <<< scale)
  let c ← raiseIf c outside .range
  charge c .alu

/-- Sets a register to the frame address, a constant, or the result of a test. -/
def set (span : Span) (c : Cpu) (dst : Operand) (value : SetValue) : Option Cpu := do
  let sp := c.regs.sp
  let fp := c.status.fp
  let result : Word :=
    match value with
    | .frameAddress =>
      (sp.extractLsb' 9 23 ++ fp ++ 0#2) + if sp.getLsbD 8 && !fp.msb then 0x200 else 0
    | .constant value => value
    | .test condition met => if condition.holds c.status then met else 0
  let c ← write span c dst result
  charge c .alu

/-- The mask of the registers that read as zero is always shifted within its width. -/
lemma writeOnly_eq (code : Nat) : writeOnly code = some (Global.writeOnly code) := by
  unfold writeOnly
  split
  · rename_i small
    exact proceeds (amount_eq small) rfl
  · have other : Global.writeOnly code = false := by
      simp [Global.writeOnly, Global.bcr, Global.tpr, Global.fcr, Global.mcr]
      omega
    rw [other]

section

variable (s : Sound span (n + 1) c)
include s

/-- A logical operation never fails. -/
lemma logical_gives (op : LogicalOp) (dst : Operand) (src : Source) :
    Gives span n (logical span c op dst src) (c.logical op dst src) :=
  .after (read_eq c dst) (.after (source_eq c src) ((assign_gives s dst _ _).charge .alu))

/-- A complement never fails. -/
lemma complement_gives (dst src : Operand) :
    Gives span n (complement span c dst src) (c.complement dst src) :=
  .after (read_eq c src) ((assign_gives s dst _ _).charge .alu)

/-- A masking never fails. -/
lemma mask_gives (dst src : Operand) (mask : Word) :
    Gives span n (Checked.mask span c dst src mask) (c.mask dst src mask) :=
  .after (read_eq c src) (.bind (write_gives s dst _) fun s => charge_gives (s.modifyStatus _) .alu)

/-- A count of leading zeros never fails. -/
lemma leadingZeros_gives (dst src : Operand) :
    Gives span n (leadingZeros span c dst src) (c.leadingZeros dst src) :=
  .after (read_eq c src) ((write_gives s dst _).charge .alu)

/-- Every register can be read by a move. -/
lemma readMoved_gives (few : n ≤ 6) (src : Operand) :
    readMoved span c src = some (c.readMoved src) ∧ Sound span (n + 1) (c.readMoved src).2 := by
  unfold readMoved Cpu.readMoved Cpu.readGlobal
  cases src.bank with
  | locals => exact ⟨proceeds (read_eq c src) rfl, s⟩
  | globals =>
    dsimp only
    rw [writeOnly_eq]
    -- with the mask in place the choice is the exact one
    show (if Global.writeOnly src.code = true then _ else _) = some _ ∧ _
    split
    · exact ⟨rfl, s⟩
    · split
      · exact readTicks_gives s (by omega)
      · exact ⟨proceeds (global_eq c.regs src.code) rfl, s⟩

/-- A move never fails. -/
lemma move_gives (few : n ≤ 6) (dst src : Operand) :
    Gives span n (move span c dst src) (c.move dst src) := by
  obtain ⟨moved, s⟩ := readMoved_gives s few src
  exact .after moved ((assign_gives s dst _ _).charge .alu)

/-- A move of an immediate word never fails. -/
lemma moveImmediate_gives (dst : Operand) (value : Word) :
    Gives span n (moveImmediate span c dst value) (c.moveImmediate dst value) :=
  (assign_gives s dst value _).charge .alu

/-- A move of a pair never fails. -/
lemma moveDouble_gives {dst src : Operand} (dstSmall : dst.code < 32) (srcSmall : src.code < 32) :
    Gives span n (moveDouble span c dst src) (c.moveDouble dst src) := by
  have value : (if src.isSr then some 0 else readPair c src) =
      some (if src.isSr then 0 else c.readPair src) := by
    split
    · rfl
    · exact readPair_eq c srcSmall
  exact .after value (.bind (writePair_gives s dstSmall _) fun s =>
    charge_gives (s.modifyStatus _) .doubleAlu)

/-- The setting of a register never fails. -/
lemma set_gives (dst : Operand) (value : SetValue) :
    Gives span n (set span c dst value) (c.set dst value) :=
  (write_gives s dst _).charge .alu

end

section

variable (s : Sound span (n + 2) c)
include s

/-- The refusal of a move never fails. -/
lemma refuseMove_gives : Gives span n (refuseMove c) c.refuseMove := (raise_gives s .privilege).charge .alu

/-- A move of an index never fails, if it is scaled by less than a word. -/
lemma indexMove_gives (dst src : Operand) {scale : Nat} (short : scale < 32) (limit : Option Word) :
    Gives span n (indexMove span c dst src scale limit) (c.indexMove dst src scale limit) :=
  .after (read_eq c src) (.after (amount_eq short) (.bind (write_gives s dst _) fun s =>
    (raiseIf_gives s _ .range).charge .alu))

end

/-! ## Division, multiplication and signal processing -/

/-- Divides a pair of registers by a register, with a range error where that is not defined. -/
def divide (span : Span) (c : Cpu) (dst src : Operand) (signed : Bool) : Option Cpu := do
  let d ← read c src
  let dividend ← readPair c dst
  if d == 0 || (signed && dividend.msb) then
    let c ← raise (c.modifyStatus fun s => { s with v := true }) .range
    charge c .divide
  else
    let (quotient, remainder) ← quotientRemainder dividend d signed
    let c ← writePair span c dst (remainder ++ quotient)
    charge (c.modifyStatus fun s => { s.setResult quotient with v := false }) .divide

/-- Writes a double product with its flags. -/
def assignProduct (span : Span) (c : Cpu) (dst : Operand) (product : Double) : Option Cpu := do
  let c ← writePair span c dst product
  return c.modifyStatus fun s => { s with z := product == 0, n := product.msb }

/-- Multiplies two registers, to one register or to a pair. -/
def multiply (span : Span) (c : Cpu) (kind : ProductKind) (dst src : Operand) : Option Cpu := do
  let d ← read c dst
  let s ← read c src
  match kind with
  | .unsignedDouble =>
    let product ← unsignedProduct d s
    let c ← assignProduct span c dst product
    charge c (Cpu.productCost kind d s)
  | .signedDouble =>
    let product ← product d s
    let c ← assignProduct span c dst (BitVec.ofInt 64 product)
    charge c (Cpu.productCost kind d s)
  | .single =>
    let c ← write span c dst (d * s)
    charge (c.modifyStatus (·.setResult (d * s))) (Cpu.productCost kind d s)

/-- Accumulates. -/
def accumulation (c : Cpu) (f : Accumulation) (dst src : Operand) : Option Cpu := do
  let value ← accumulate f c.accumulator (← read c dst) (← read c src)
  charge (c.setAccumulator value) .extend

/-- A division never fails: what would make it do so raises a range error before. -/
lemma divide_gives (s : Sound span (n + 2) c) {dst : Operand} (small : dst.code < 32) (src : Operand)
    (signed : Bool) : Gives span n (divide span c dst src signed) (c.divide dst src signed) := by
  refine .after (read_eq c src) (.after (readPair_eq c small) ?_)
  unfold Cpu.divide
  dsimp only
  generalize c.readPair dst = dividend
  generalize c.read src = d
  split
  · exact .bind (raise_gives (s.modifyStatus _) .range) fun s => charge_gives s .divide
  · rename_i defined
    -- what the guard lets through is divided without overflow: the dividend is not negative
    rw [Bool.or_eq_true, Bool.and_eq_true, beq_iff_eq] at defined
    have nonzero : d ≠ 0 := fun zero => defined (.inl zero)
    have nonneg (isSigned : signed = true) : dividend.msb = false :=
      Bool.eq_false_iff.2 fun negative => defined (.inr ⟨isSigned, negative⟩)
    refine .after (quotientRemainder_eq signed nonzero nonneg) (.less ?_)
    exact .bind (writePair_gives s small _) fun s => charge_gives (s.modifyStatus _) .divide

section

variable (s : Sound span (n + 1) c)
include s

/-- A double product can always be assigned. -/
lemma assignProduct_gives {dst : Operand} (small : dst.code < 32) (product : Double) :
    Gives span (n + 1) (assignProduct span c dst product) (c.assignProduct dst product) :=
  .bind (writePair_gives s small product) fun s => .pure (s.modifyStatus _)

/-- A multiplication never fails. -/
lemma multiply_gives (kind : ProductKind) {dst : Operand} (small : dst.code < 32) (src : Operand) :
    Gives span n (multiply span c kind dst src) (c.multiply kind dst src) := by
  refine .after (read_eq c dst) (.after (read_eq c src) ?_)
  unfold Cpu.multiply
  dsimp only
  cases kind with
  | unsignedDouble => exact .after (unsignedProduct_eq _ _) ((assignProduct_gives s small _).charge _)
  | signedDouble =>
    have value : BitVec.ofInt 64 ((c.read dst).toInt * (c.read src).toInt) =
        signedProduct (c.read dst) (c.read src) := ofInt_product _ _
    refine .after (product_eq (by decide) (c.read dst) (c.read src)).1 ?_
    rw [value]
    exact (assignProduct_gives s small _).charge _
  | single => exact .bind (write_gives s dst _) fun s => charge_gives (s.modifyStatus _) _

/-- An accumulation never fails. -/
lemma accumulation_gives (f : Accumulation) (dst src : Operand) :
    Gives span n (accumulation c f dst src) (c.accumulate f dst src) :=
  .after (read_eq c dst) (.after (read_eq c src) (.after (accumulate_eq f _ _ _)
    (charge_gives ((s.store _ _).store _ _) .extend)))

end

/-! ## Shifts and rotation -/

/-- Shifts a register by a count of five bits. -/
def shiftWord (span : Span) (c : Cpu) (kind : ShiftKind) (dst : Operand) (count : Source) :
    Option Cpu := do
  let r ← shift kind (← read c dst) ((← source c count).toNat % 32)
  let c ← write span c dst r.value
  charge (c.modifyStatus (kind.apply r)) .alu

/-- Shifts a pair of registers by a count of six bits. -/
def shiftDouble (span : Span) (c : Cpu) (kind : ShiftKind) (dst : Operand) (count : Source) :
    Option Cpu := do
  let r ← shift kind (← readPair c dst) ((← source c count).toNat % 64)
  let c ← writePair span c dst r.value
  charge (c.modifyStatus (kind.apply r)) .alu

/-- Rotates a register by a count of five bits, with the flags of a shift. -/
def rotate (span : Span) (c : Cpu) (dst src : Operand) : Option Cpu := do
  let n := (← read c src).toNat % 32
  let d ← read c dst
  let value := d.rotateLeft n
  let shifted ← shift .left d n
  let c ← write span c dst value
  charge (c.modifyStatus fun s =>
    { s.setResult value with c := n != 0 && value.getLsbD 0, v := shifted.overflow }) .alu

section

variable (s : Sound span (n + 1) c)
include s

/-- A shift of a register never fails. -/
lemma shiftWord_gives (kind : ShiftKind) (dst : Operand) (count : Source) :
    Gives span n (shiftWord span c kind dst count) (c.shift kind dst count) :=
  .after (read_eq c dst) (.after (source_eq c count) (.after
    (shift_eq kind _ (Nat.mod_lt _ (by decide))) (.bind (write_gives s dst _) fun s =>
      charge_gives (s.modifyStatus _) .alu)))

/-- A shift of a pair never fails. -/
lemma shiftDouble_gives (kind : ShiftKind) {dst : Operand} (small : dst.code < 32) (count : Source) :
    Gives span n (shiftDouble span c kind dst count) (c.shiftDouble kind dst count) :=
  .after (readPair_eq c small) (.after (source_eq c count) (.after
    (shift_eq kind _ (Nat.mod_lt _ (by decide))) (.bind (writePair_gives s small _) fun s =>
      charge_gives (s.modifyStatus _) .alu)))

/-- A rotation never fails. -/
lemma rotate_gives (dst src : Operand) :
    Gives span n (rotate span c dst src) (c.rotate dst src) :=
  .after (read_eq c src) (.after (read_eq c dst) (.after
    (shift_eq .left _ (Nat.mod_lt _ (by decide))) (.bind (write_gives s dst _) fun s =>
      charge_gives (s.modifyStatus _) .alu)))

end

/-! ## Transfers of control -/

/-- Branches at once. -/
def branch (c : Cpu) (offset : Word) : Option Cpu :=
  charge ((c.jump (c.regs.pc + offset)).modifyStatus fun s => { s with m := false }) .branchTaken

/-- Branches with delay, and holds interrupts back. -/
def delayedBranch (c : Cpu) (offset : Word) : Option Cpu :=
  charge ((c.delayTo (c.regs.pc + offset)).block 2) .delayedBranchTaken

/-- Calls a subprogram with return address and status in the registers of a new frame. -/
def call (c : Cpu) (code : Nat) (src : Operand) (addend : Word) : Option Cpu := do
  let target := alignHalf addend + (← readBeyondCarry c src)
  let c := c.noteLength c.length
  let c ← fillFrame c code [c.returnPc, c.status.bits]
  let c := c.modifyStatus fun s => { s with fp := s.fp + BitVec.ofNat 7 code, fl := 6, m := false }
  charge ((c.jump target).block 2) .controlTransfer

/-- Enters the handler of a trap, if its condition holds. -/
def trap (c : Cpu) (number : Nat) (condition : Option Condition) : Option Cpu := do
  let c ← (if condition.any (·.holds c.status) then enterTrap c number else some c)
  charge c .controlTransfer

/-- Advances the address register of a transfer that is reserved, and reports it. -/
def reservedTransfer (span : Span) (c : Cpu) (address : Operand) (step : Word) (report : Diagnostic) :
    Option Cpu := do
  let c ← write span c address ((← read c address) + step)
  charge (c.report report) .memoryWord

section

variable (s : Sound span (n + 1) c)
include s

/-- A branch never fails. -/
lemma branch_gives (offset : Word) : Gives span n (branch c offset) (c.branch offset) :=
  charge_gives ((s.jump _).modifyStatus _) .branchTaken

/-- A delayed branch never fails. -/
lemma delayedBranch_gives (offset : Word) :
    Gives span n (delayedBranch c offset) (c.delayedBranch offset) :=
  charge_gives ((s.delayTo _).block 2) .delayedBranchTaken

/-- A call never fails, if its code is that of a register. -/
lemma call_gives {code : Nat} (small : code ≤ 16) (src : Operand) (addend : Word) :
    Gives span n (call c code src addend) (c.call code src addend) := by
  have noted := s.modifyStatus fun s => { s with ilc := BitVec.ofNat 2 c.length }
  refine .after (readBeyondCarry_eq c src) (.bind (fillFrame_gives _ noted ?_) fun s =>
    charge_gives (((s.modifyStatus _).jump _).block 2) .controlTransfer)
  show code + 2 < 256
  omega

/-- A reserved transfer never fails. -/
lemma reservedTransfer_gives (address : Operand) (step : Word) (report : Diagnostic) :
    Gives span n (reservedTransfer span c address step report)
      (c.reservedTransfer address step report) :=
  .after (read_eq c address) (.bind (write_gives s address _) fun s =>
    charge_gives (s.report report) .memoryWord)

end

/-- A trap never fails. -/
lemma trap_gives (s : Sound span (n + 2) c) (number : Nat) (condition : Option Condition) :
    Gives span n (trap c number condition) (c.trap number condition) := by
  refine Gives.charge ?_ .controlTransfer
  split
  · exact enterTrap_gives s number
  · exact .pure (s.less (Nat.le_succ _))

end Checked

end E1Machine
