import E1Machine.Bus.Flat
import E1Machine.Proofs.Checked.Numbers
import E1Machine.Proofs.GeneralRegisters
import E1Machine.Proofs.Lockout

/-!
# Division

The division of a register pair by a register leaves the remainder in the first register of the pair and the
quotient in the second. It is refused with a range error if the divisor is zero or the dividend is negative, and
for no other reason: a quotient that does not fit in a word is cut to one.

Main statement: `Machine.divide_exact_iff`, a division that is not refused leaves the exact remainder, and the
dividend is the quotient times the divisor and the remainder exactly if the quotient fits.
-/

namespace E1Machine

/-! ## Numbers -/

/-- The number that a word of any width stands for. -/
def asNumber (signed : Bool) {w : Nat} (x : BitVec w) : Int := if signed then x.toInt else x.toNat

/-- Whether a word can stand for a number. -/
def FitsWord (signed : Bool) (n : Int) : Prop :=
  if signed then -0x80000000 ≤ n ∧ n < 0x80000000 else 0 ≤ n ∧ n < 0x100000000

/-- A number is that of the word it is cut to exactly if it fits. -/
lemma asNumber_ofInt (signed : Bool) (n : Int) :
    asNumber signed (BitVec.ofInt 32 n) = n ↔ FitsWord signed n := by
  cases signed with
  | true =>
    show (BitVec.ofInt 32 n).toInt = n ↔ -0x80000000 ≤ n ∧ n < 0x80000000
    rw [BitVec.toInt_ofInt, Int.bmod_def]
    omega
  | false =>
    show ((BitVec.ofInt 32 n).toNat : Int) = n ↔ 0 ≤ n ∧ n < 0x100000000
    rw [BitVec.toNat_ofInt]
    omega

/-- A number that is less than what some word stands for fits in a word. -/
lemma fitsWord_of_lt {signed : Bool} {d : Word} {n : Int} (nonneg : 0 ≤ n)
    (less : n.natAbs < (asNumber signed d).natAbs) : FitsWord signed n := by
  cases signed with
  | true =>
    have least := Checked.natAbs_toInt_le d
    have less : n.natAbs < d.toInt.natAbs := less
    show -0x80000000 ≤ n ∧ n < 0x80000000
    omega
  | false =>
    have greatest := d.isLt
    have less : n.natAbs < (d.toNat : Int).natAbs := less
    show 0 ≤ n ∧ n < 0x100000000
    omega

/-- Zero is the number of the zero word only. -/
lemma asNumber_eq_zero (signed : Bool) {d : Word} : asNumber signed d = 0 ↔ d = 0 := by
  cases signed with
  | true => exact ⟨fun zero => BitVec.eq_of_toInt_eq zero, fun zero => by rw [zero]; rfl⟩
  | false =>
    refine ⟨fun zero => BitVec.eq_of_toNat_eq (Int.ofNat_inj.mp zero), fun zero => by rw [zero]; rfl⟩

/-- A dividend is negative exactly if it is signed and its top bit is set. -/
lemma asNumber_neg (signed : Bool) (dividend : Double) :
    asNumber signed dividend < 0 ↔ signed = true ∧ dividend.msb = true := by
  cases signed with
  | true =>
    rw [BitVec.msb_eq_toInt, decide_eq_true_iff]
    exact (and_iff_right rfl).symm
  | false => exact iff_of_false (Int.not_lt.mpr (Int.natCast_nonneg _)) nofun

namespace Cpu

/-- Quotient and remainder are those of the numbers, cut to words. -/
lemma quotientRemainder_numbers {signed : Bool} {dividend : Double} (nonneg : 0 ≤ asNumber signed dividend)
    (divisor : Word) :
    quotientRemainder dividend divisor signed =
      (BitVec.ofInt 32 ((asNumber signed dividend).tdiv (asNumber signed divisor)),
        BitVec.ofInt 32 ((asNumber signed dividend).tmod (asNumber signed divisor))) := by
  cases signed with
  | true =>
    have positive : dividend.msb = false := by
      rw [BitVec.msb_eq_toInt]
      exact decide_eq_false (Int.not_lt.mpr nonneg)
    show (lowWord (dividend.sdiv (divisor.signExtend 64)),
      lowWord (dividend.srem (divisor.signExtend 64))) = _
    rw [Checked.lowWord_eq, Checked.lowWord_eq, Checked.toInt_sdiv positive, Checked.toInt_srem]
    rfl
  | false =>
    show (lowWord (dividend / divisor.setWidth 64), lowWord (dividend % divisor.setWidth 64)) =
      (BitVec.ofInt 32 ((dividend.toNat : Int).tdiv divisor.toNat),
        BitVec.ofInt 32 ((dividend.toNat : Int).tmod divisor.toNat))
    rw [Checked.lowWord_eq_ofNat, Checked.lowWord_eq_ofNat, Checked.toNat_udiv, Checked.toNat_umod,
      ← Int.ofNat_tdiv, ← Int.ofNat_tmod, BitVec.ofInt_natCast, BitVec.ofInt_natCast]

/-! ## The two outcomes -/

/-- The division of a number in the pair at `dst` leads from `c` to `after` without an exception. -/
structure Divides (c : Cpu) (dst : Operand) (signed : Bool) (dividend divisor : Int) (after : Cpu) :
    Prop where
  quiet : after.entries = c.entries
  remainder : asNumber signed (after.read dst) = dividend.tmod divisor
  small : (asNumber signed (after.read dst)).natAbs < divisor.natAbs
  quotient : after.read dst.next = BitVec.ofInt 32 (dividend.tdiv divisor)
  exact_iff : dividend = asNumber signed (after.read dst.next) * divisor + asNumber signed (after.read dst) ↔
    FitsWord signed (dividend.tdiv divisor)
  status : after.status =
    { c.status with z := after.read dst.next == 0, n := (after.read dst.next).msb, v := false }
  others (o : Operand) (general : o.IsGeneral) (first : dst.Apart o) (second : dst.next.Apart o) :
    after.read o = c.read o

/-- A division leads from `c` to `after` through the range error noted as `e`: the status register that it stacks,
and that its handler finds in the second register of the new frame, has `V` set, and no register changes but the
program counter, the status register and the two of that frame. -/
structure Refuses (c : Cpu) (e : Entry) (after : Cpu) : Prop where
  entries : after.entries = c.entries.push e
  cause : e.cause = .exception .range
  frame : e.frame = c.status.fp + BitVec.ofNat 7 c.status.frameLength
  stacked : e.stacked =
    [c.returnPc, Status.bits { c.status with v := true, ilc := BitVec.ofNat 2 c.length }]
  current : after.status.fp = e.frame
  found : after.read ⟨.locals, 0⟩ = c.returnPc ∧
    after.read ⟨.locals, 1⟩ = Status.bits { c.status with v := true, ilc := BitVec.ofNat 2 c.length }
  globals (code : Nat) (notPc : code % 32 ≠ Global.pc) (notSr : code % 32 ≠ Global.sr) :
    after.regs.global code = c.regs.global code
  locals (slot : Fin 64) (outside : ∀ k < 2, localSlot k e.frame.toNat ≠ slot) :
    after.regs.localAt slot = c.regs.localAt slot

/-- The entry that an exception notes has this exception as its cause. -/
lemma raise_cause (c : Cpu) (exception : Exception) {e : Entry}
    (entries : (c.raise exception).entries = c.entries.push e) : e.cause = .exception exception := by
  obtain ⟨e', cause, pushed⟩ := c.enterFrame_cause (.exception exception)
    (c.entry.vector exception.trapNumber) 2
  obtain rfl : e = e' := Array.push_eq_push.mp (entries.symm.trans pushed) |>.1
  exact cause

/-- A division that is refused sets `V` before the range error is raised, so that `V` is stacked. -/
lemma raise_refuses (c : Cpu) : ∃ e,
    Refuses c e (((c.modifyStatus fun s => { s with v := true }).raise .range).charge .divide) := by
  -- With `V` set the processor is a variable, so that the entry is not computed.
  obtain ⟨d, eq⟩ : ∃ d, d = c.modifyStatus fun s => { s with v := true } := ⟨_, rfl⟩
  rw [← eq]
  obtain ⟨e, enters, stacked⟩ := d.raise_frame .range
  have cause := d.raise_cause .range enters.entries
  have charged := enters.spend ((d.raise .range).cost .divide)
  have back : d.returnPc = c.returnPc := by
    have pc : d.regs.pc = c.regs.pc := by
      rw [eq]
      exact Registers.global_setStatus c.regs _ (by decide)
    unfold returnPc
    rw [pc, eq]
    rfl
  have noted : (d.noteLength d.length).status =
      { c.status with v := true, ilc := BitVec.ofNat 2 c.length } := by
    rw [eq]
    rfl
  have entries : d.entries = c.entries := by
    rw [eq]
    rfl
  have frame : d.status.fp + BitVec.ofNat 7 d.status.frameLength =
      c.status.fp + BitVec.ofNat 7 c.status.frameLength := by
    rw [eq]
    rfl
  rw [back, noted] at stacked
  refine ⟨e, entries ▸ charged.entries, cause, charged.frame.trans frame, stacked, charged.fp,
    ⟨charged.read (by rw [stacked]; rfl), charged.read (by rw [stacked]; rfl)⟩,
    fun code notPc notSr => ?_, fun slot outside => ?_⟩
  · refine (charged.globals code notPc notSr).trans ?_
    rw [eq]
    exact Registers.global_setStatus c.regs _ notSr
  · refine (charged.filled.others slot fun k inside => ?_).trans ?_
    · rw [Nat.zero_add]
      rw [stacked] at inside
      exact outside k inside
    · rw [eq]
      rfl

/-- A division that is refused stores nothing. -/
lemma divide_refused (c : Cpu) (dst src : Operand) {signed : Bool}
    (refused : asNumber signed (c.read src) = 0 ∨ asNumber signed (c.readPair dst) < 0) :
    c.divide dst src signed =
      ((c.modifyStatus fun s => { s with v := true }).raise .range).charge .divide := by
  rw [asNumber_eq_zero, asNumber_neg] at refused
  unfold divide
  dsimp only
  rw [if_pos (by rwa [Bool.or_eq_true, beq_iff_eq, Bool.and_eq_true])]

/-- Any other division stores the remainder and what the quotient leaves in a word. -/
lemma divide_stores (c : Cpu) {dst : Operand} (general : dst.IsGeneralField) (src : Operand) {signed : Bool}
    {dividend : Int} (isDividend : asNumber signed (c.readPair dst) = dividend) (nonneg : 0 ≤ dividend)
    (nonzero : asNumber signed (c.read src) ≠ 0) :
    let quotient : Word := BitVec.ofInt 32 (dividend.tdiv (asNumber signed (c.read src)))
    StoresPair c dst (BitVec.ofInt 32 (dividend.tmod (asNumber signed (c.read src)))) quotient
      { c.status with z := quotient == 0, n := quotient.msb, v := false } (c.divide dst src signed) := by
  subst isDividend
  have carriedOut : ¬ (c.read src = 0 ∨ signed = true ∧ (c.readPair dst).msb = true) := by
    rw [← asNumber_eq_zero signed, ← asNumber_neg, not_or]
    exact ⟨nonzero, Int.not_lt.mpr nonneg⟩
  unfold divide
  dsimp only
  rw [if_neg (by rwa [Bool.or_eq_true, beq_iff_eq, Bool.and_eq_true]), quotientRemainder_numbers nonneg]
  exact c.writePair_stores general _ _ (f := fun s =>
    { s.setResult (BitVec.ofInt 32 ((asNumber signed (c.readPair dst)).tdiv (asNumber signed (c.read src))))
      with v := false }) rfl _

/-- A division that is carried out is exact up to the cut of its quotient. -/
lemma divide_divides (c : Cpu) {dst : Operand} (general : dst.IsGeneralField) (src : Operand)
    {signed : Bool} {dividend : Int} (isDividend : asNumber signed (c.readPair dst) = dividend)
    (nonneg : 0 ≤ dividend) (nonzero : asNumber signed (c.read src) ≠ 0) :
    Divides c dst signed dividend (asNumber signed (c.read src)) (c.divide dst src signed) := by
  -- The quotient before it is cut, and the remainder with it, are those of the numbers.
  have whole := Int.mul_tdiv_add_tmod dividend (asNumber signed (c.read src))
  have less : (dividend.tmod (asNumber signed (c.read src))).natAbs <
      (asNumber signed (c.read src)).natAbs := by
    rw [Int.natAbs_tmod]
    exact Nat.mod_lt _ (Int.natAbs_pos.mpr nonzero)
  have remainder : asNumber signed (BitVec.ofInt 32 (dividend.tmod (asNumber signed (c.read src)))) =
      dividend.tmod (asNumber signed (c.read src)) :=
    (asNumber_ofInt signed _).mpr (fitsWord_of_lt (Int.tmod_nonneg _ nonneg) less)
  obtain ⟨quiet, status, first, second, others⟩ := c.divide_stores general src isDividend nonneg nonzero
  generalize asNumber signed (c.read src) = divisor at *
  generalize c.divide dst src signed = after at *
  rw [← first] at remainder
  refine ⟨quiet, remainder, remainder ▸ less, second, ?_, by rw [second]; exact status, others⟩
  rw [second, remainder, ← asNumber_ofInt]
  constructor
  -- A quotient that fits makes the cut equation the exact one, which can be divided by the divisor.
  · intro eq
    have same : asNumber signed (BitVec.ofInt 32 (dividend.tdiv divisor)) * divisor =
        dividend.tdiv divisor * divisor := by
      rw [Int.mul_comm divisor] at whole
      omega
    exact Int.eq_of_mul_eq_mul_right nonzero same
  · intro exact
    rw [exact, Int.mul_comm]
    exact whole.symm

end Cpu

namespace Machine

variable {β : Type} [Bus β]

/-- A division is refused exactly if the divisor is zero or the dividend is negative, and then the pair keeps what
it held wherever the new frame does not overlay it. Otherwise the remainder is exact, and the quotient is cut to a
word, so it is exact if it fits. -/
theorem divide_exact_iff (m : Machine β) {dst : Operand} (general : dst.IsGeneralField) (src : Operand)
    (signed : Bool) :
    let dividend := asNumber signed (m.cpu.readPair dst)
    let divisor := asNumber signed (m.cpu.read src)
    let after := ((execute (.divide dst src signed)).run m).2.cpu
    (divisor = 0 ∨ dividend < 0 → ∃ e, m.cpu.Refuses e after) ∧
    (divisor ≠ 0 → 0 ≤ dividend → m.cpu.Divides dst signed dividend divisor after) := by
  intro dividend divisor after
  have run : after = m.cpu.divide dst src signed := rfl
  rw [run]
  refine ⟨fun refused => ?_, fun nonzero nonneg => m.cpu.divide_divides general src rfl nonneg nonzero⟩
  rw [m.cpu.divide_refused dst src refused]
  exact m.cpu.raise_refuses

/-- A machine that is to divide the pair of local registers 4 and 5, which holds 2^32, by register 6, which
holds 1. -/
def largeQuotient : Machine (DeviceBus FlatMemory) :=
  (powerOn Variant.e132t.config (({} : FlatMemory).loadHalves 0x1000 [0x0b46])).session
    [.host .reset, .host (.setGlobal Global.pc 0x1000), .host (.setLocal 4 1), .host (.setLocal 6 1)]

/-- The division by register 6 is carried out, and a division by register 7, which holds zero, is refused. -/
theorem largeQuotient_divided :
    largeQuotient.cpu.Divides ⟨.locals, 4⟩ false 0x100000000 1
      ((execute (.divide ⟨.locals, 4⟩ ⟨.locals, 6⟩ false)).run largeQuotient).2.cpu ∧
    ∃ e, largeQuotient.cpu.Refuses e
      ((execute (.divide ⟨.locals, 4⟩ ⟨.locals, 7⟩ false)).run largeQuotient).2.cpu := by
  have dividend : asNumber false (largeQuotient.cpu.readPair ⟨.locals, 4⟩) = 0x100000000 := by decide +kernel
  have divisor : asNumber false (largeQuotient.cpu.read ⟨.locals, 6⟩) = 1 := by decide +kernel
  have general : Operand.IsGeneralField ⟨.locals, 4⟩ := by decide
  constructor
  · obtain ⟨-, divides⟩ := divide_exact_iff largeQuotient general ⟨.locals, 6⟩ false
    rw [dividend, divisor] at divides
    exact divides (by decide) (by decide)
  · obtain ⟨refuses, -⟩ := divide_exact_iff largeQuotient general ⟨.locals, 7⟩ false
    exact refuses (.inl (by decide +kernel))

/-- No range error is raised, and quotient and remainder are zero. -/
theorem quotient_cut :
    let after := (executeOne.run largeQuotient).2
    after.cpu.entries = largeQuotient.cpu.entries ∧
      after.cpu.read ⟨.locals, 4⟩ = 0 ∧ after.cpu.read ⟨.locals, 5⟩ = 0 ∧
      asNumber false (largeQuotient.cpu.readPair ⟨.locals, 4⟩) ≠
        asNumber false (after.cpu.read ⟨.locals, 5⟩) * asNumber false (largeQuotient.cpu.read ⟨.locals, 6⟩) +
          asNumber false (after.cpu.read ⟨.locals, 4⟩) := by
  decide +kernel

end Machine

end E1Machine
