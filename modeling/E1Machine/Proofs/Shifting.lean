import E1Machine.Bus.Flat
import E1Machine.Proofs.Forms
import E1Machine.Proofs.GeneralRegisters
import E1Machine.Proofs.Moves
import Mathlib

/-!
# Shifts and rotation as arithmetic

A shift by `n` places divides by `2 ^ n` or multiplies by it: `ShiftKind.Scales` says so of the numbers that the
bits stand for, and `ShiftKind.Describes` says of the flags what they tell of the numbers. This holds at any width,
for words and for register pairs alike, whose registers may lie at both ends of the bank.

Main statement: `Machine.shifts_exact`.
-/

namespace E1Machine

/-! ## The numbers -/

/-- A bit is a binary digit of the number. -/
lemma getLsbD_iff {w : Nat} (x : BitVec w) (i : Nat) : x.getLsbD i = true ↔ x.toNat / 2 ^ i % 2 = 1 := by
  rw [← BitVec.testBit_toNat, Nat.testBit_eq_decide_div_mod_eq, decide_eq_true_iff]

/-- A word is zero exactly if its number is. -/
lemma beq_zero_iff {w : Nat} (r : BitVec w) : (r == 0) = true ↔ r.toNat = 0 := by
  rw [beq_iff_eq, ← BitVec.toNat_inj]
  rfl

/-- The top bit is set exactly if the signed number is negative. -/
lemma msb_iff {w : Nat} (r : BitVec w) : r.msb = true ↔ r.toInt < 0 := by
  rw [BitVec.msb_eq_toInt, decide_eq_true_iff]

namespace ShiftKind

variable {w : Nat}

/-- What a shift of `x` by `n` places stores: `x / 2 ^ n`, rounded down, or `x * 2 ^ n` modulo the width. -/
def Scales (x : BitVec w) (n : Nat) (r : BitVec w) : ShiftKind → Prop
  | logical => r.toNat = x.toNat / 2 ^ n
  | arithmetic => r.toInt = x.toInt / 2 ^ n
  | left => r.toNat = x.toNat * 2 ^ n % 2 ^ w

/-- Whether the last bit shifted out is one: the first binary digit after the point of `x / 2 ^ n`, or the lowest
digit of `x * 2 ^ n` beyond the width. -/
def DropsOne (x : BitVec w) (n : Nat) : ShiftKind → Prop
  | logical | arithmetic => 2 * x.toNat / 2 ^ n % 2 = 1
  | left => x.toNat * 2 ^ n / 2 ^ w % 2 = 1

/-- The flags with which a shift of `x` by `n` places leaves its result `r`: the last bit shifted out, the zero and
the sign of the whole result, and for left shifts whether the product is out of the range of signed numbers. -/
structure Describes (kind : ShiftKind) (x : BitVec w) (n : Nat) (r : BitVec w) (before after : Status) : Prop where
  carry : after.c = true ↔ kind.DropsOne x n
  unmoved : n = 0 → after.c = false
  zero : after.z = true ↔ r.toNat = 0
  negative : after.n = true ↔ r.toInt < 0
  overflow : kind = .left → (after.v = true ↔ x.toInt * 2 ^ n ∉ Set.Ico (-2 ^ (w - 1)) (2 ^ (w - 1)))
  kept : kind ≠ .left → after.v = before.v
  others : after = { before with c := after.c, z := after.z, n := after.n, v := after.v }

/-- The last bit that a shift to the right drops is the first digit after the point. -/
lemma drops_right (x : BitVec w) (n : Nat) :
    (n != 0 && x.getLsbD (n - 1)) = true ↔ 2 * x.toNat / 2 ^ n % 2 = 1 := by
  cases n with
  | zero => simp
  | succ n =>
    rw [Nat.pow_succ', Nat.mul_div_mul_left _ _ Nat.two_pos, ← getLsbD_iff]
    simp

/-- The last bit that a shift to the left drops is the lowest digit beyond the width. -/
lemma drops_left (x : BitVec w) {n : Nat} (less : n < w) :
    (n != 0 && x.getLsbD (w - n)) = true ↔ x.toNat * 2 ^ n / 2 ^ w % 2 = 1 := by
  have split : 2 ^ w = 2 ^ (w - n) * 2 ^ n := by
    rw [← Nat.pow_add, Nat.sub_add_cancel (Nat.le_of_lt less)]
  rw [split, Nat.mul_div_mul_right _ _ (Nat.two_pow_pos n), ← getLsbD_iff]
  cases n with
  | zero => simp
  | succ n => simp

/-- A left shift loses the signed value exactly if the product is out of range. -/
lemma overflow_iff (x : BitVec w) {n : Nat} (less : n < w) :
    ((x <<< n).sshiftRight n != x) = true ↔ x.toInt * 2 ^ n ∉ Set.Ico (-2 ^ (w - 1)) (2 ^ (w - 1)) := by
  have wide : (2 : Int) ^ w = 2 * 2 ^ (w - 1) := by
    rw [← pow_succ', Nat.sub_add_cancel (by omega)]
  have split : (2 : Int) ^ w = 2 ^ (w - n) * 2 ^ n := by
    rw [← pow_add, Nat.sub_add_cancel (Nat.le_of_lt less)]
  have positive : (0 : Int) < 2 ^ n := by positivity
  have shifted : (x <<< n).toInt = (x.toInt * 2 ^ n).bmod (2 ^ w) := by
    rw [BitVec.toInt_shiftLeft, Nat.shiftLeft_eq, BitVec.toInt_eq_toNat_bmod, Int.bmod_mul_bmod]
    push_cast
    rfl
  have least : -2 ^ (w - 1) ≤ (x <<< n).toInt := BitVec.le_toInt _
  have most : (x <<< n).toInt < 2 ^ (w - 1) := BitVec.toInt_lt
  have back : (x <<< n).sshiftRight n = x ↔ (x <<< n).toInt / 2 ^ n = x.toInt := by
    rw [← BitVec.toInt_inj, BitVec.toInt_sshiftRight, Int.shiftRight_eq_div_pow]
    push_cast
    rfl
  rw [bne_iff_ne, ne_eq, back, not_iff_not]
  constructor
  · intro same
    -- The product and the value that is left differ by a multiple of the modulus, and no such part is left.
    obtain ⟨k, differ⟩ : ((2 ^ w : Nat) : Int) ∣ (x <<< n).toInt - x.toInt * 2 ^ n := by
      rw [shifted]
      exact Int.dvd_bmod_sub_self
    push_cast at differ
    have quotient : (x <<< n).toInt = (x.toInt + 2 ^ (w - n) * k) * 2 ^ n := by
      rw [add_mul, mul_right_comm, ← split, ← differ]
      ring
    rw [quotient, Int.mul_ediv_cancel _ positive.ne'] at same
    have exact : (x <<< n).toInt = x.toInt * 2 ^ n := by
      rw [quotient, same]
    rw [← exact]
    exact ⟨least, most⟩
  · rintro ⟨lower, upper⟩
    have exact : (x <<< n).toInt = x.toInt * 2 ^ n := by
      rw [shifted]
      refine Int.bmod_eq_of_le ?_ ?_ <;> push_cast <;> rw [wide] <;> omega
    rw [exact, Int.mul_ediv_cancel _ positive.ne']

/-- A shift stores the quotient or the product by a power of two. -/
lemma shift_scales (kind : ShiftKind) (x : BitVec w) (n : Nat) : kind.Scales x n (kind.shift x n).value := by
  cases kind with
  | logical =>
    show (x >>> n).toNat = _
    rw [BitVec.toNat_ushiftRight, Nat.shiftRight_eq_div_pow]
  | arithmetic =>
    show (x.sshiftRight n).toInt = _
    rw [BitVec.toInt_sshiftRight, Int.shiftRight_eq_div_pow]
    push_cast
    rfl
  | left =>
    show (x <<< n).toNat = _
    rw [BitVec.toNat_shiftLeft, Nat.shiftLeft_eq]

/-- The flags of a shift describe its result. -/
lemma shift_describes (kind : ShiftKind) (x : BitVec w) {n : Nat} (less : n < w) (s : Status) :
    kind.Describes x n (kind.shift x n).value s (kind.apply (kind.shift x n) s) where
  carry := by
    cases kind with
    | logical | arithmetic => exact drops_right x n
    | left => exact drops_left x less
  unmoved := by
    rintro rfl
    cases kind <;> rfl
  zero := beq_zero_iff _
  negative := msb_iff _
  overflow := by
    rintro rfl
    exact overflow_iff x less
  kept right := if_neg right
  others := rfl

end ShiftKind

/-- What a rotation of `x` by `n` places to the left stores: what leaves at the top comes in at the bottom. -/
def Rotates {w : Nat} (x : BitVec w) (n : Nat) (r : BitVec w) : Prop :=
  r.toNat = x.toNat * 2 ^ n % 2 ^ w + x.toNat * 2 ^ n / 2 ^ w

/-- A rotation brings in at the bottom what leaves at the top. -/
lemma rotateLeft_rotates {w : Nat} (x : BitVec w) {n : Nat} (less : n < w) : Rotates x n (x.rotateLeft n) := by
  have split : 2 ^ w = 2 ^ (w - n) * 2 ^ n := by
    rw [← Nat.pow_add, Nat.sub_add_cancel (Nat.le_of_lt less)]
  have small : x.toNat / 2 ^ (w - n) < 2 ^ n := Nat.div_lt_of_lt_mul (split ▸ x.isLt)
  unfold Rotates
  rw [BitVec.toNat_rotateLeft, Nat.mod_eq_of_lt less, Nat.shiftLeft_eq, Nat.shiftRight_eq_div_pow, split,
    Nat.mul_mod_mul_right, Nat.mul_div_mul_right _ _ (Nat.two_pow_pos n), ← Nat.shiftLeft_eq,
    Nat.shiftLeft_add_eq_or_of_lt small]

/-- The flags of a rotation describe its result, with the last bit that went round as carry. -/
lemma rotate_describes (x : Word) {n : Nat} (less : n < 32) (s : Status) :
    ShiftKind.left.Describes x n (x.rotateLeft n) s
      { s.setResult (x.rotateLeft n) with
        c := n != 0 && (x.rotateLeft n).getLsbD 0
        v := (ShiftKind.left.shift x n).overflow } where
  carry := by
    refine Iff.trans ?_ (ShiftKind.drops_left x less)
    cases n with
    | zero => simp
    | succ n =>
      have last : (x.rotateLeft (n + 1)).getLsbD 0 = x.getLsbD (32 - (n + 1)) := by
        rw [BitVec.getLsbD_rotateLeft, Nat.mod_eq_of_lt less, decide_eq_true (Nat.succ_pos n), cond_true,
          Nat.add_zero]
      rw [last]
  unmoved := by
    rintro rfl
    rfl
  zero := beq_zero_iff _
  negative := msb_iff (x.rotateLeft n)
  overflow _ := ShiftKind.overflow_iff x less
  kept right := absurd rfl right
  others := rfl

/-! ## The instructions -/

/-- What is shifted, and how. -/
inductive Shifting where
  /-- A word. -/
  | word (kind : ShiftKind)
  /-- A register pair. -/
  | pair (kind : ShiftKind)
  /-- A word whose upper bits come in again below. -/
  | rotation
  deriving DecidableEq, Repr

/-- The number of bits that are shifted. -/
def Shifting.width : Shifting → Nat
  | word _ | rotation => 32
  | pair _ => 64

/-- Every operation shifts 32 bits at least. -/
lemma Shifting.le_width (s : Shifting) : 32 ≤ s.width := by
  unfold width
  split <;> decide

/-- What an operation shifts, and whether the number of places is a literal. -/
def Operation.shifting : Operation → Option (Shifting × Bool)
  | shri => some (.word .logical, true)
  | shr => some (.word .logical, false)
  | sari => some (.word .arithmetic, true)
  | sar => some (.word .arithmetic, false)
  | shli => some (.word .left, true)
  | shl => some (.word .left, false)
  | shrdi => some (.pair .logical, true)
  | shrd => some (.pair .logical, false)
  | sardi => some (.pair .arithmetic, true)
  | sard => some (.pair .arithmetic, false)
  | shldi => some (.pair .left, true)
  | shld => some (.pair .left, false)
  | rol => some (.rotation, false)
  | _ => none

namespace Cpu

/-- A register or a register pair is shifted by `n` places, the flags describe what it then holds, and nothing
else changes. -/
def Shifts (c : Cpu) (dst : Operand) (n : Nat) (after : Cpu) : Shifting → Prop
  | .word kind =>
    kind.Scales (c.read dst) n (after.read dst) ∧
      kind.Describes (c.read dst) n (after.read dst) c.status after.status ∧
      Touches c [dst] (c.cost .alu) after
  | .pair kind =>
    kind.Scales (c.readPair dst) n (after.readPair dst) ∧
      kind.Describes (c.readPair dst) n (after.readPair dst) c.status after.status ∧
      Touches c [dst.next, dst] (c.cost .alu) after
  | .rotation =>
    Rotates (c.read dst) n (after.read dst) ∧
      ShiftKind.left.Describes (c.read dst) n (after.read dst) c.status after.status ∧
      Touches c [dst] (c.cost .alu) after

variable (c : Cpu) {dst : Operand} (general : dst.IsGeneralField)
include general

/-- A shift of a register shifts by its count modulo 32. -/
lemma shift_shifts (kind : ShiftKind) (count : Source) :
    c.Shifts dst ((c.source count).toNat % 32) (c.shift kind dst count) (.word kind) := by
  have less : (c.source count).toNat % 32 < 32 := Nat.mod_lt _ (by decide)
  obtain ⟨r, result⟩ : ∃ r, r = kind.shift (c.read dst) ((c.source count).toNat % 32) := ⟨_, rfl⟩
  obtain ⟨after, eq⟩ : ∃ after, after = ((c.write dst r.value).modifyStatus (kind.apply r)).charge .alu :=
    ⟨_, rfl⟩
  have run : c.shift kind dst count = after := by
    rw [eq, result]
    rfl
  have stored : Stores c dst r.value (kind.apply r c.status) after := by
    rw [eq]
    exact c.write_stores general.isGeneral r.value rfl _
  have touches : Touches c [dst] (c.cost .alu) after := by
    rw [eq]
    exact c.write_touches general.isGeneral r.value (fun _ => by rfl) .alu
  rw [run]
  unfold Shifts
  rw [stored.value, stored.status, result]
  exact ⟨kind.shift_scales _ _, kind.shift_describes _ less _, touches⟩

/-- A shift of a pair shifts by its count modulo 64. -/
lemma shiftDouble_shifts (kind : ShiftKind) (count : Source) :
    c.Shifts dst ((c.source count).toNat % 64) (c.shiftDouble kind dst count) (.pair kind) := by
  have less : (c.source count).toNat % 64 < 64 := Nat.mod_lt _ (by decide)
  obtain ⟨r, result⟩ : ∃ r, r = kind.shift (c.readPair dst) ((c.source count).toNat % 64) := ⟨_, rfl⟩
  obtain ⟨after, eq⟩ : ∃ after, after = ((c.writePair dst r.value).modifyStatus (kind.apply r)).charge .alu :=
    ⟨_, rfl⟩
  have run : c.shiftDouble kind dst count = after := by
    rw [eq, result]
    rfl
  have words : highWord r.value ++ lowWord r.value = r.value := BitVec.extractLsb'_append_extractLsb'
  have stored : StoresPair c dst (highWord r.value) (lowWord r.value) (kind.apply r c.status) after := by
    have stored := c.writePair_stores general (highWord r.value) (lowWord r.value) (f := kind.apply r) rfl
    rw [words] at stored
    rw [eq]
    exact stored _
  have touches : Touches c [dst.next, dst] (c.cost .alu) after := by
    rw [eq]
    exact c.writePair_touches general r.value (fun _ => by rfl) .alu
  have value : after.readPair dst = r.value := by
    unfold readPair
    rw [stored.high, stored.low, words]
  rw [run]
  unfold Shifts
  rw [value, stored.status, result]
  exact ⟨kind.shift_scales _ _, kind.shift_describes _ less _, touches⟩

/-- A register is shifted by the literal in the instruction word. -/
lemma shift_literal (kind : ShiftKind) {n : Nat} (small : n < 32) :
    c.Shifts dst n (c.shift kind dst (.literal (BitVec.ofNat 32 n))) (.word kind) := by
  have value : (BitVec.ofNat 32 n).toNat = n := Nat.mod_eq_of_lt (by omega)
  have shifts := c.shift_shifts general kind (.literal (BitVec.ofNat 32 n))
  rwa [show (c.source (.literal (BitVec.ofNat 32 n))).toNat = n from value, Nat.mod_eq_of_lt small] at shifts

/-- A pair is shifted by the literal in the instruction word. -/
lemma shiftDouble_literal (kind : ShiftKind) {n : Nat} (small : n < 32) :
    c.Shifts dst n (c.shiftDouble kind dst (.literal (BitVec.ofNat 32 n))) (.pair kind) := by
  have value : (BitVec.ofNat 32 n).toNat = n := Nat.mod_eq_of_lt (by omega)
  have shifts := c.shiftDouble_shifts general kind (.literal (BitVec.ofNat 32 n))
  rwa [show (c.source (.literal (BitVec.ofNat 32 n))).toNat = n from value, Nat.mod_eq_of_lt (by omega)] at shifts

/-- A rotation goes by its count modulo 32. -/
lemma rotate_shifts (src : Operand) :
    c.Shifts dst ((c.read src).toNat % 32) (c.rotate dst src) .rotation := by
  have less : (c.read src).toNat % 32 < 32 := Nat.mod_lt _ (by decide)
  have stored : Stores c dst _ _ (c.rotate dst src) := c.write_stores general.isGeneral _ rfl _
  have touches : Touches c [dst] (c.cost .alu) (c.rotate dst src) :=
    c.write_touches general.isGeneral _ (fun _ => by rfl) .alu
  unfold Shifts
  rw [stored.value, stored.status]
  exact ⟨rotateLeft_rotates _ less, rotate_describes _ less _, touches⟩

end Cpu

namespace Machine

variable {β : Type} [Bus β]

/-- Every shift and rotation is exact: what the destination holds afterwards is what it held before, divided by the
power of two or multiplied by it, with the flags that describe it, and no other register changes. The number of
places is a literal, or a register modulo the width that is not one of those shifted. -/
theorem shifts_exact (m : Machine β) (word : Half) {s : Shifting} {literal : Bool}
    (shifting : (Encoding.ofWord word).operation.shifting = some (s, literal)) :
    let dst := (Encoding.ofWord word).dstOperand word
    let src := (Encoding.ofWord word).srcOperand word
    let n := if literal then nField word else (m.cpu.read src).toNat % s.width
    dst.isPc = false → dst.isSr = false → (literal = false → s.width = 64 → src ≠ dst ∧ src ≠ dst.next) →
      n < s.width ∧ ∃ i after,
        (∀ address status,
          (Instruction.decode address word status : Decode β (Option Instruction)) = pure (some i)) ∧
        (execute i).run m = ((), ⟨after, m.bus⟩) ∧ m.cpu.Shifts dst n after s := by
  intro dst src n notPc notSr apart
  have general : dst.IsGeneralField := ⟨(Decode.fields_lt word).1, notPc, notSr⟩
  have small : nField word < 32 := (word.extractLsb' 8 1 ++ word.extractLsb' 0 4).isLt
  constructor
  · have width := s.le_width
    show (if literal then nField word else (m.cpu.read src).toNat % s.width) < s.width
    split
    · omega
    · exact Nat.mod_lt _ (by omega)
  -- The opcode says which shift it is, and the cases are those of decoding.
  · unfold Instruction.decode
    dsimp only
    generalize (Encoding.ofWord word).operation = operation at shifting
    cases operation with
    | shri | sari | shli =>
      cases shifting
      exact ⟨_, _, fun _ _ => rfl, rfl, m.cpu.shift_literal general _ small⟩
    | shr | sar | shl =>
      cases shifting
      exact ⟨_, _, fun _ _ => rfl, rfl, m.cpu.shift_shifts general _ (.register src)⟩
    | shrdi | sardi | shldi =>
      cases shifting
      exact ⟨_, _, fun _ _ => rfl, rfl, m.cpu.shiftDouble_literal general _ small⟩
    | shrd | sard | shld =>
      cases shifting
      -- Decoding has excluded that the count is in the pair, which would be undefined.
      have allowed : ¬ (src = dst ∨ src = dst.next) := not_or.mpr (apart rfl rfl)
      refine ⟨.shiftDouble _ dst (.register src), _, fun _ _ => ?_, rfl,
        m.cpu.shiftDouble_shifts general _ (.register src)⟩
      exact congrArg (fun i => pure (some i)) (if_neg allowed)
    | rol =>
      cases shifting
      exact ⟨_, _, fun _ _ => rfl, rfl, m.cpu.rotate_shifts general src⟩
    | _ => cases shifting

/-- A machine whose local registers 3 and 4 are the last slot of the bank and the first one. They hold 1.5 * 2^32. -/
def splitPair : Machine (DeviceBus FlatMemory) :=
  let m := powerOn Variant.e132t.config {}
  let framed := m.cpu.modifyStatus fun status => { status with fp := 60, fl := 8 }
  ⟨framed.modifyRegs fun r => (r.setInFrame 3 1).setInFrame 4 0x80000000, m.bus⟩

/-- A shift of this pair by one place to the left doubles it. -/
theorem splitPair_shifted :
    splitPair.cpu.regs.slot 3 = Fin.last 63 ∧ splitPair.cpu.regs.slot 4 = 0 ∧
      ∃ i after, (Instruction.decode 0x1000 0x8831 {} : Decode (DeviceBus FlatMemory) _) = pure (some i) ∧
        (execute i).run splitPair = ((), ⟨after, splitPair.bus⟩) ∧
        after.readPair ⟨.locals, 3⟩ = 0x300000000 ∧ after.status.c = false := by
  have shifting : (Encoding.ofWord 0x8831).operation.shifting = some (.pair .left, true) := by decide
  have before : splitPair.cpu.readPair ⟨.locals, 3⟩ = 0x180000000 := by decide +kernel
  have isDst : (Encoding.ofWord 0x8831).dstOperand 0x8831 = ⟨.locals, 3⟩ := by decide
  obtain ⟨-, i, after, decoded, run, scales, describes, -⟩ :=
    splitPair.shifts_exact 0x8831 shifting (by decide) (by decide) nofun
  rw [isDst, before] at scales describes
  refine ⟨by decide +kernel, by decide +kernel, i, after, decoded _ _, run, BitVec.eq_of_toNat_eq scales, ?_⟩
  rw [← Bool.not_eq_true, describes.carry]
  show ¬ (0x180000000 : BitVec 64).toNat * 2 ^ nField 0x8831 / 2 ^ 64 % 2 = 1
  decide

end Machine

end E1Machine
