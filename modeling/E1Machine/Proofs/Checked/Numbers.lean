import E1Machine.Effect
import Mathlib

/-!
# Checked numbers

The numbers of the processor have no bounds in this library, while a machine that runs it has numbers of eight to
sixty-four bits. The checked operations are those of such a machine: each computes what the exact operation does,
and nothing at all if the result does not fit, a divisor is zero, a shift is as long as the number that it
shifts, or an index lies outside its table. This module has them for numbers, words and register banks, where
they always succeed, given that no divisor is zero.

Masks, shifts by fixed amounts and arithmetic that goes round need no check. What has the name of an exact
operation, here and in the other checked modules, is that operation with its checks.
-/

namespace E1Machine

namespace Checked

/-! ## What can fail -/

/-- A sum or product that is to be an unsigned number of `w` bits. -/
def unsigned (w result : Nat) : Option Nat := if result < 2 ^ w then some result else none

/-- The difference of two unsigned numbers. -/
def difference (n m : Nat) : Option Nat := if m ≤ n then some (n - m) else none

/-- A result that is to be a signed number of `w` bits. -/
def signed (w : Nat) (result : Int) : Option Int :=
  if -2 ^ (w - 1) ≤ result ∧ result < 2 ^ (w - 1) then some result else none

/-- The amount by which a number of `w` bits is to be shifted. -/
def amount (w n : Nat) : Option Nat := if n < w then some n else none

/-- A number by which another is to be divided. -/
def divisor {α : Type} [Zero α] [DecidableEq α] (n : α) : Option α := if n = 0 then none else some n

/-- Replaces an element of a table. -/
def replace {α : Type} {size : Nat} (table : Vector α size) (index : Nat) (a : α) :
    Option (Vector α size) :=
  if inside : index < size then some (table.set index a inside) else none

/-- A result that fits is made. -/
lemma unsigned_eq {w n : Nat} (fits : n < 2 ^ w) : unsigned w n = some n := if_pos fits

/-- A difference that is not negative is made. -/
lemma difference_eq {n m : Nat} (less : m ≤ n) : difference n m = some (n - m) := if_pos less

/-- A signed result that fits is made. -/
lemma signed_eq {w : Nat} {n : Int} (least : -2 ^ (w - 1) ≤ n) (greatest : n < 2 ^ (w - 1)) :
    signed w n = some n :=
  if_pos ⟨least, greatest⟩

/-- A shift by less than the length of the number is made. -/
lemma amount_eq {w n : Nat} (short : n < w) : amount w n = some n := if_pos short

/-- A division by a number other than zero is made. -/
lemma divisor_eq {α : Type} [Zero α] [DecidableEq α] {n : α} (nonzero : n ≠ 0) :
    divisor n = some n := if_neg nonzero

/-- An element that is inside its table is replaced. -/
lemma replace_eq {α : Type} {size : Nat} (table : Vector α size) {index : Nat} (inside : index < size)
    (a : α) : replace table index a = some (table.set index a inside) := dif_pos inside

/-- A computation goes on from what it has. -/
lemma proceeds {α γ : Type} {x : Option α} {f : α → Option γ} {a : α} {result : Option γ} (first : x = some a)
    (rest : f a = result) : (x >>= f) = result := by
  rw [first]
  exact rest

/-! ## Sums and products -/

/-- The sum of two words and a carry is made in sixty-four bits. -/
def addWithCarry (a b : Word) (carry : Bool) : Option AdderResult := do
  let sum ← unsigned 64 (a.toNat + b.toNat)
  let wide ← unsigned 64 (sum + carry.toNat)
  let value := BitVec.ofNat 32 wide
  return ⟨value, decide (0x100000000 ≤ wide), a.msb == b.msb && value.msb != a.msb⟩

/-- The product of two unsigned words is made in sixty-four bits. -/
def unsignedProduct (d s : Word) : Option Double := do
  return BitVec.ofNat 64 (← unsigned 64 (d.toNat * s.toNat))

/-- The product of two signed numbers. -/
def product {w : Nat} (a b : BitVec w) : Option Int := signed 64 (a.toInt * b.toInt)

/-- The sum of two words and a carry always fits. -/
lemma addWithCarry_eq (a b : Word) (carry : Bool) :
    addWithCarry a b carry = some (E1Machine.addWithCarry a b carry) := by
  have first := a.isLt
  have second := b.isLt
  have one : carry.toNat ≤ 1 := carry.toNat_le
  have value : BitVec.ofNat 32 (a.toNat + b.toNat + carry.toNat) = a + b + ofFlag carry := by
    apply BitVec.eq_of_toNat_eq
    cases carry <;> simp [ofFlag, BitVec.toNat_add]
  refine proceeds (unsigned_eq (by omega)) (proceeds (unsigned_eq (by omega)) ?_)
  dsimp only
  rw [value]
  rfl

/-- The product of two unsigned words always fits. -/
lemma unsignedProduct_eq (d s : Word) : unsignedProduct d s = some (E1Machine.unsignedProduct d s) := by
  have fits : d.toNat * s.toNat < 2 ^ 32 * 2 ^ 32 := Nat.mul_lt_mul'' d.isLt s.isLt
  refine proceeds (unsigned_eq (by omega)) (congrArg some (BitVec.eq_of_toNat_eq ?_))
  simp [E1Machine.unsignedProduct, BitVec.toNat_mul]

/-- A signed number is at most as large as the least number of its width. -/
lemma natAbs_toInt_le {w : Nat} (a : BitVec w) : a.toInt.natAbs ≤ 2 ^ (w - 1) := by
  have least := a.le_toInt
  have greatest := a.toInt_lt
  have cast : ((2 ^ (w - 1) : Nat) : Int) = 2 ^ (w - 1) := by push_cast; rfl
  omega

/-- The product of two signed numbers fits, and is at most as large as that of the least ones. -/
lemma product_eq {w : Nat} (short : w ≤ 32) (a b : BitVec w) :
    product a b = some (a.toInt * b.toInt) ∧
      (a.toInt * b.toInt).natAbs ≤ 2 ^ (w - 1) * 2 ^ (w - 1) := by
  have bound : (a.toInt * b.toInt).natAbs ≤ 2 ^ (w - 1) * 2 ^ (w - 1) := by
    rw [Int.natAbs_mul]
    exact Nat.mul_le_mul (natAbs_toInt_le a) (natAbs_toInt_le b)
  have half : 2 ^ (w - 1) ≤ 2 ^ 31 := Nat.pow_le_pow_right (by decide) (by omega)
  have most : 2 ^ (w - 1) * 2 ^ (w - 1) ≤ 2 ^ 31 * 2 ^ 31 := Nat.mul_le_mul half half
  exact ⟨signed_eq (by omega) (by omega), bound⟩

/-- The low word of a double word is the double word cut to thirty-two bits. -/
lemma lowWord_eq_ofNat (d : Double) : lowWord d = BitVec.ofNat 32 d.toNat :=
  (BitVec.setWidth_eq_extractLsb' (by decide)).symm

/-- What is computed with signed numbers of sixty-four bits and cut to a word. -/
lemma lowWord_eq (d : Double) : lowWord d = BitVec.ofInt 32 d.toInt := by
  unfold lowWord
  rw [← BitVec.setWidth_eq_extractLsb' (by decide)]
  apply BitVec.eq_of_toInt_eq
  rw [BitVec.toInt_setWidth, BitVec.toInt_ofInt, BitVec.toInt_eq_toNat_bmod,
    Int.bmod_bmod_of_dvd (by decide)]

/-! ## Division -/

/-- The quotient and the remainder are made in sixty-four bits, signed or unsigned. -/
def quotientRemainder (dividend : Double) (d : Word) (isSigned : Bool) : Option (Word × Word) := do
  if isSigned then
    let n ← divisor d.toInt
    let quotient ← signed 64 (dividend.toInt.tdiv n)
    return (BitVec.ofInt 32 quotient, BitVec.ofInt 32 (dividend.toInt.tmod n))
  else
    let n ← divisor d.toNat
    return (BitVec.ofNat 32 (dividend.toNat / n), BitVec.ofNat 32 (dividend.toNat % n))

/-- The only quotient that does not fit in a double word is that of the least number by minus one. -/
lemma toInt_sdiv {dividend : Double} (nonneg : dividend.msb = false) (d : Word) :
    (dividend.sdiv (d.signExtend 64)).toInt = dividend.toInt.tdiv d.toInt := by
  rw [BitVec.toInt_sdiv_of_ne_or_ne _ _ (.inl _), BitVec.toInt_signExtend_of_le (by decide)]
  rintro rfl
  cases nonneg

/-- The signed remainder of a double word is the remainder of its number, cut towards zero. -/
lemma toInt_srem (dividend : Double) (d : Word) :
    (dividend.srem (d.signExtend 64)).toInt = dividend.toInt.tmod d.toInt := by
  rw [BitVec.toInt_srem, BitVec.toInt_signExtend_of_le (by decide)]

/-- The unsigned quotient of a double word is the quotient of its number. -/
lemma toNat_udiv (dividend : Double) (d : Word) :
    (dividend / d.setWidth 64).toNat = dividend.toNat / d.toNat := by
  rw [BitVec.toNat_udiv, BitVec.toNat_setWidth_of_le (by decide)]

/-- The unsigned remainder of a double word is the remainder of its number. -/
lemma toNat_umod (dividend : Double) (d : Word) :
    (dividend % d.setWidth 64).toNat = dividend.toNat % d.toNat := by
  rw [BitVec.toNat_umod, BitVec.toNat_setWidth_of_le (by decide)]

/-- A signed dividend is never negative. -/
lemma quotientRemainder_eq {dividend : Double} {d : Word} (isSigned : Bool) (nonzero : d ≠ 0)
    (nonneg : isSigned = true → dividend.msb = false) :
    quotientRemainder dividend d isSigned = some (Cpu.quotientRemainder dividend d isSigned) := by
  cases isSigned with
  | true =>
    have divides : d.toInt ≠ 0 := by
      intro zero
      exact nonzero (BitVec.eq_of_toInt_eq zero)
    refine proceeds (divisor_eq divides) ?_
    rw [← toInt_sdiv (nonneg rfl), ← toInt_srem]
    refine proceeds (signed_eq (BitVec.le_toInt _) BitVec.toInt_lt) ?_
    rw [← lowWord_eq, ← lowWord_eq]
    rfl
  | false =>
    have divides : d.toNat ≠ 0 := fun zero => nonzero (BitVec.eq_of_toNat_eq zero)
    refine proceeds (divisor_eq divides) ?_
    rw [← toNat_udiv, ← toNat_umod, ← lowWord_eq_ofNat, ← lowWord_eq_ofNat]
    rfl

/-! ## Shifts -/

/-- Shifts by `n` places. The last bit shifted out is at the end after a shift by one place less. -/
def shift {w : Nat} (kind : ShiftKind) (value : BitVec w) (n : Nat) : Option (Shifted w) := do
  if n = 0 then return ⟨value, false, false⟩
  else
    let last ← difference n 1
    let n ← amount w n
    let last ← amount w last
    match kind with
    | .logical => return ⟨value >>> n, (value >>> last).getLsbD 0, false⟩
    | .arithmetic => return ⟨value.sshiftRight n, (value >>> last).getLsbD 0, false⟩
    | .left => return ⟨value <<< n, (value <<< last).msb, (value <<< n).sshiftRight n != value⟩

/-- A shift by less than the length of the number is the one that has no checks. -/
lemma shift_eq {w : Nat} (kind : ShiftKind) (value : BitVec w) {n : Nat} (short : n < w) :
    shift kind value n = some (kind.shift value n) := by
  unfold shift
  by_cases zero : n = 0
  · subst zero
    cases kind <;> simp [ShiftKind.shift]
  · rw [if_neg zero]
    refine proceeds (difference_eq (by omega)) (proceeds (amount_eq short)
      (proceeds (amount_eq (by omega)) ?_))
    have moved : (n != 0) = true := bne_iff_ne.2 zero
    cases kind with
    | logical | arithmetic => simp [ShiftKind.shift, moved]
    | left =>
      have last : w - 1 - (n - 1) = w - n := by omega
      have inside : w - 1 < w := by omega
      have kept : ¬w - 1 < n - 1 := by omega
      simp [ShiftKind.shift, moved, BitVec.msb_eq_getLsbD_last, last, inside, kept]
      exact (BitVec.getLsbD_eq_getElem _).symm

/-! ## Signal processing -/

/-- The sum of the products of both pairs of halves is made in sixty-four bits. -/
def halfProducts (d s : Word) : Option Int := do
  let high ← product (highHalf d) (highHalf s)
  let low ← product (lowHalf d) (lowHalf s)
  signed 64 (high + low)

/-- The real part of a complex product is made in sixty-four bits, and cut to a word. -/
def realProduct (d s : Word) : Option Word := do
  let high ← product (highHalf d) (highHalf s)
  let low ← product (lowHalf d) (lowHalf s)
  return BitVec.ofInt 32 (← signed 64 (high - low))

/-- The imaginary part of a complex product is made in sixty-four bits, and cut to a word. -/
def imaginaryProduct (d s : Word) : Option Word := do
  let outer ← product (highHalf d) (lowHalf s)
  let inner ← product (lowHalf d) (highHalf s)
  return BitVec.ofInt 32 (← signed 64 (outer + inner))

/-- The accumulator after an instruction. -/
def accumulate (f : Accumulation) (acc : Double) (d s : Word) : Option Double := do
  let high := highWord acc
  let low := lowWord acc
  match f with
  | .product => return high ++ d * s
  | .unsignedProduct => unsignedProduct d s
  | .signedProduct => return BitVec.ofInt 64 (← product d s)
  | .addProduct => return high ++ (low + BitVec.ofInt 32 (← product d s))
  | .addProductDouble => return acc + BitVec.ofInt 64 (← product d s)
  | .subProduct => return high ++ (low - BitVec.ofInt 32 (← product d s))
  | .subProductDouble => return acc - BitVec.ofInt 64 (← product d s)
  | .addHalves => return high ++ (low + BitVec.ofInt 32 (← halfProducts d s))
  | .addHalvesDouble => return acc + BitVec.ofInt 64 (← halfProducts d s)
  | .complexProduct =>
    let real ← realProduct d s
    let imaginary ← imaginaryProduct d s
    return real ++ imaginary
  | .addComplexProduct =>
    let real ← realProduct d s
    let imaginary ← imaginaryProduct d s
    return (high + real) ++ (low + imaginary)
  | .sumAndDifference =>
    let highSum ← signed 64 ((highHalf d).toInt + (highHalf s).toInt)
    let lowSum ← signed 64 ((lowHalf d).toInt + (lowHalf s).toInt)
    let highRest ← signed 64 ((highHalf d).toInt - (highHalf s).toInt)
    let lowRest ← signed 64 ((lowHalf d).toInt - (lowHalf s).toInt)
    return (BitVec.ofInt 16 highSum ++ BitVec.ofInt 16 lowSum) ++
      (BitVec.ofInt 16 highRest ++ BitVec.ofInt 16 lowRest)

/-- The difference of two words is the difference of the numbers, cut to the width. -/
lemma ofInt_sub (w : Nat) (a b : Int) : BitVec.ofInt w (a - b) = BitVec.ofInt w a - BitVec.ofInt w b := by
  rw [Int.sub_eq_add_neg, BitVec.ofInt_add, BitVec.ofInt_neg, BitVec.sub_eq_add_neg]

/-- The low word of a number cut to a double word is the number cut to a word. -/
lemma lowWord_ofInt (n : Int) : lowWord (BitVec.ofInt 64 n) = BitVec.ofInt 32 n := by
  apply BitVec.eq_of_toInt_eq
  rw [lowWord_eq, BitVec.toInt_ofInt, BitVec.toInt_ofInt, BitVec.toInt_ofInt,
    Int.bmod_bmod_of_dvd (by decide)]

/-- A product of sixty-four bits is what the exact product leaves there. -/
lemma ofInt_product {w : Nat} (a b : BitVec w) :
    BitVec.ofInt 64 (a.toInt * b.toInt) = a.signExtend 64 * b.signExtend 64 := BitVec.ofInt_mul _ _

/-- The product of two halves always fits, and is the one that has no checks. -/
lemma halfProduct_eq (a b : Half) :
    product a b = some (a.toInt * b.toInt) ∧ (a.toInt * b.toInt).natAbs ≤ 2 ^ 15 * 2 ^ 15 ∧
      BitVec.ofInt 64 (a.toInt * b.toInt) = halfProduct a b := by
  obtain ⟨eq, bound⟩ := product_eq (by decide) a b
  exact ⟨eq, bound, ofInt_product a b⟩

/-- The sum of the products of both pairs of halves always fits. -/
lemma halfProducts_eq (d s : Word) : ∃ n, halfProducts d s = some n ∧
    BitVec.ofInt 64 n = E1Machine.halfProducts d s := by
  obtain ⟨high, highBound, highValue⟩ := halfProduct_eq (highHalf d) (highHalf s)
  obtain ⟨low, lowBound, lowValue⟩ := halfProduct_eq (lowHalf d) (lowHalf s)
  refine ⟨_, proceeds high (proceeds low (signed_eq (by omega) (by omega))), ?_⟩
  rw [BitVec.ofInt_add, highValue, lowValue]
  rfl

/-- The real part of a complex product always fits. -/
lemma realProduct_eq (d s : Word) : realProduct d s = some (E1Machine.realProduct d s) := by
  obtain ⟨high, highBound, highValue⟩ := halfProduct_eq (highHalf d) (highHalf s)
  obtain ⟨low, lowBound, lowValue⟩ := halfProduct_eq (lowHalf d) (lowHalf s)
  refine proceeds high (proceeds low (proceeds (signed_eq (by omega) (by omega)) ?_))
  rw [← lowWord_ofInt, ofInt_sub, highValue, lowValue]
  rfl

/-- The imaginary part of a complex product always fits. -/
lemma imaginaryProduct_eq (d s : Word) : imaginaryProduct d s = some (E1Machine.imaginaryProduct d s) := by
  obtain ⟨outer, outerBound, outerValue⟩ := halfProduct_eq (highHalf d) (lowHalf s)
  obtain ⟨inner, innerBound, innerValue⟩ := halfProduct_eq (lowHalf d) (highHalf s)
  refine proceeds outer (proceeds inner (proceeds (signed_eq (by omega) (by omega)) ?_))
  rw [← lowWord_ofInt, BitVec.ofInt_add, outerValue, innerValue]
  rfl

/-- The accumulator after an instruction is always made. -/
lemma accumulate_eq (f : Accumulation) (acc : Double) (d s : Word) :
    accumulate f acc d s = some (f.apply acc d s) := by
  obtain ⟨product, -⟩ := product_eq (by decide) d s
  have whole : BitVec.ofInt 64 (d.toInt * s.toInt) = E1Machine.signedProduct d s := ofInt_product d s
  have low : BitVec.ofInt 32 (d.toInt * s.toInt) = lowWord (E1Machine.signedProduct d s) := by
    rw [← whole, lowWord_ofInt]
  cases f with
  | product => rfl
  | unsignedProduct => exact unsignedProduct_eq d s
  | signedProduct | addProductDouble | subProductDouble =>
    refine proceeds product ?_
    rw [whole]
    rfl
  | addProduct | subProduct =>
    refine proceeds product ?_
    rw [low]
    rfl
  | addHalves =>
    obtain ⟨n, sum, value⟩ := halfProducts_eq d s
    refine proceeds sum ?_
    rw [← lowWord_ofInt, value]
    rfl
  | addHalvesDouble =>
    obtain ⟨n, sum, value⟩ := halfProducts_eq d s
    refine proceeds sum ?_
    rw [value]
    rfl
  | complexProduct | addComplexProduct =>
    exact proceeds (realProduct_eq d s) (proceeds (imaginaryProduct_eq d s) rfl)
  | sumAndDifference =>
    -- The halves are sums and differences of sixteen bits, far below the bounds.
    have bounded (w : Word) : (highHalf w).toInt.natAbs ≤ 2 ^ 15 ∧ (lowHalf w).toInt.natAbs ≤ 2 ^ 15 :=
      ⟨natAbs_toInt_le _, natAbs_toInt_le _⟩
    obtain ⟨dHigh, dLow⟩ := bounded d
    obtain ⟨sHigh, sLow⟩ := bounded s
    have sum (a b : Half) : BitVec.ofInt 16 (a.toInt + b.toInt) = a + b := by
      rw [BitVec.ofInt_add, BitVec.ofInt_toInt, BitVec.ofInt_toInt]
    have rest (a b : Half) : BitVec.ofInt 16 (a.toInt - b.toInt) = a - b := by
      rw [ofInt_sub, BitVec.ofInt_toInt, BitVec.ofInt_toInt]
    refine proceeds (signed_eq (by omega) (by omega)) (proceeds (signed_eq (by omega) (by omega))
      (proceeds (signed_eq (by omega) (by omega)) (proceeds (signed_eq (by omega) (by omega)) ?_)))
    rw [sum, sum, rest, rest]
    rfl

/-! ## Register banks -/

/-- The place in the local bank of a register of the frame at `fp`. Its code is one of eight bits. -/
def place (code fp : Nat) : Option Nat := do
  return (← unsigned 64 (code % 256 + fp)) % 64

/-- The local register that a code names in the current frame. -/
def inFrame (r : Registers) (code : Nat) : Option Word := do
  let index ← place code r.status.fp.toNat
  r.locals[index]?

/-- Replaces the local register that a code names in the current frame. -/
def setInFrame (r : Registers) (code : Nat) (value : Word) : Option Registers := do
  let index ← place code r.status.fp.toNat
  let locals ← replace r.locals index value
  return { r with locals }

/-- The local register that backs a stack word. -/
def backing (r : Registers) (addr : Word) : Option Word := r.locals[addr.toNat / 4 % 64]?

/-- Replaces the local register that backs a stack word. -/
def setBacking (r : Registers) (addr value : Word) : Option Registers := do
  let locals ← replace r.locals (addr.toNat / 4 % 64) value
  return { r with locals }

/-- The global register that a code names. -/
def global (r : Registers) (code : Nat) : Option Word :=
  if code % 32 = Global.sr then some r.status.bits else r.globals[code % 32]?

/-- Replaces the global register that a code names. -/
def setGlobal (r : Registers) (code : Nat) (value : Word) : Option Registers := do
  if code % 32 = Global.sr then return { r with status := Status.ofBits value }
  else
    let globals ← replace r.globals (code % 32) value
    return { r with globals }

/-- The place of a register of a frame is always inside the local bank. -/
lemma place_eq (code : Nat) (fp : BitVec 7) :
    place code fp.toNat = some (localSlot code fp.toNat).val := by
  have below := fp.isLt
  refine proceeds (unsigned_eq (by omega)) (congrArg some ?_)
  show (code % 256 + fp.toNat) % 64 = (code + fp.toNat) % 64
  omega

/-- Every register of the current frame can be read. -/
lemma inFrame_eq (r : Registers) (code : Nat) : inFrame r code = some (r.inFrame code) :=
  proceeds (place_eq code r.status.fp) (Vector.getElem?_eq_getElem (localSlot _ _).isLt)

/-- Every register of the current frame can be replaced. -/
lemma setInFrame_eq (r : Registers) (code : Nat) (value : Word) :
    setInFrame r code value = some (r.setInFrame code value) :=
  proceeds (place_eq code r.status.fp) (proceeds (replace_eq _ (localSlot _ _).isLt value) rfl)

/-- Every stack word is backed by a register. -/
lemma backing_eq (r : Registers) (addr : Word) : backing r addr = some (r.localAt (stackCell addr)) :=
  Vector.getElem?_eq_getElem (stackCell addr).isLt

/-- The register that backs a stack word can be replaced. -/
lemma setBacking_eq (r : Registers) (addr value : Word) :
    setBacking r addr value = some (r.setLocalAt (stackCell addr) value) :=
  proceeds (replace_eq _ (stackCell addr).isLt value) rfl

/-- Every global register can be read. -/
lemma global_eq (r : Registers) (code : Nat) : global r code = some (r.global code) := by
  unfold global Registers.global
  split
  · rfl
  · exact Vector.getElem?_eq_getElem (Nat.mod_lt code (by decide))

/-- Every global register can be replaced. -/
lemma setGlobal_eq (r : Registers) (code : Nat) (value : Word) :
    setGlobal r code value = some (r.setGlobal code value) := by
  unfold setGlobal Registers.setGlobal
  split
  · rfl
  · exact proceeds (replace_eq _ (Nat.mod_lt code (by decide)) value) rfl

end Checked

end E1Machine
