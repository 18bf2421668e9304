import E1Machine.Bus.Flat
import E1Machine.Proofs.Forms
import E1Machine.Proofs.GeneralRegisters
import E1Machine.Proofs.Moves
import Mathlib

/-!
# Comparisons and what follows them

A comparison leaves flags by which branches, traps and `SET` instructions decide. Each of these has its own codes
for the conditions. Here the codes are written down by condition (`Condition.branchCode` and its companions), and a
decision, whatever the fields of its instruction word that are free, falls as the numbers compare.

Main statement: `Machine.compare_decides`.
-/

namespace E1Machine

namespace Condition

/-! ## The order of numbers -/

/-- What a condition says of two words as numbers. -/
def Relates (d s : Word) : Condition → Prop
  | overflow => d.toInt - s.toInt ∉ Set.Ico (-2 ^ 31) (2 ^ 31)
  | noOverflow => d.toInt - s.toInt ∈ Set.Ico (-2 ^ 31) (2 ^ 31)
  | equal => d.toInt = s.toInt
  | notEqual => d.toInt ≠ s.toInt
  | smaller => d.toNat < s.toNat
  | higherOrEqual => s.toNat ≤ d.toNat
  | smallerOrEqual => d.toNat ≤ s.toNat
  | higher => s.toNat < d.toNat
  | less => d.toInt < s.toInt
  | greaterOrEqual => s.toInt ≤ d.toInt
  | lessOrEqual => d.toInt ≤ s.toInt
  | greater => s.toInt < d.toInt
  | always => True

/-- A subtraction overflows exactly if the signed difference is out of range. -/
lemma overflow_iff (d s : Word) :
    (subWithBorrow d s false).overflow = true ↔ d.toInt - s.toInt ∉ Set.Ico (-2 ^ 31) (2 ^ 31) := by
  have value : (subWithBorrow d s false).value = d - s := BitVec.sub_zero _
  have flag : (subWithBorrow d s false).overflow = d.ssubOverflow s := by
    show (d.msb != s.msb && (subWithBorrow d s false).value.msb != d.msb) = _
    rw [value, BitVec.ssubOverflow_eq]
    cases d.msb <;> cases s.msb <;> cases (d - s).msb <;> rfl
  rw [flag]
  unfold BitVec.ssubOverflow
  rw [Bool.or_eq_true, decide_eq_true_iff, decide_eq_true_iff, Set.mem_Ico]
  omega

/-- The flags of a comparison meet a condition exactly if the numbers do. -/
lemma holds_compareFlags (k : Condition) (d s : Word) (status : Status) :
    k.holds (compareFlags d s status) = true ↔ k.Relates d s := by
  have v := overflow_iff d s
  have z : (d == s) = true ↔ d.toInt = s.toInt := by rw [beq_iff_eq, BitVec.toInt_inj]
  have z' : d.toInt = s.toInt ↔ d.toNat = s.toNat := by rw [BitVec.toInt_inj, BitVec.toNat_inj]
  have n : d.slt s = true ↔ d.toInt < s.toInt := BitVec.slt_iff_toInt_lt
  have c : d.ult s = true ↔ d.toNat < s.toNat := BitVec.ult_iff_lt
  have atMost : (d.slt s || d == s) = true ↔ d.toInt ≤ s.toInt := by
    rw [Bool.or_eq_true, n, z]
    exact Int.le_iff_lt_or_eq.symm
  have atMost' : (d.ult s || d == s) = true ↔ d.toNat ≤ s.toNat := by
    rw [Bool.or_eq_true, c, z, z']
    exact Nat.le_iff_lt_or_eq.symm
  have negated {flag : Bool} {p : Prop} (met : flag = true ↔ p) : (!flag) = true ↔ ¬p := by
    rw [Bool.not_eq_true', ← Bool.not_eq_true, met]
  -- A condition and its negation share a fact about the flags.
  cases k with
  | overflow => exact v
  | noOverflow => exact (negated v).trans not_not
  | equal => exact z
  | notEqual => exact negated z
  | smaller => exact c
  | higherOrEqual => exact (negated c).trans Nat.not_lt
  | smallerOrEqual => exact atMost'
  | higher => exact (negated atMost').trans Nat.not_le
  | less => exact n
  | greaterOrEqual => exact (negated n).trans Int.not_lt
  | lessOrEqual => exact atMost
  | greater => exact (negated atMost).trans Int.not_le
  | always => exact iff_of_true rfl trivial

/-! ## The codes -/

/-- The codes of the conditions of branches and delayed branches. -/
def branchCode : Condition → Option (BitVec 4)
  | overflow => some 0
  | noOverflow => some 1
  | equal => some 2
  | notEqual => some 3
  | smaller => some 4
  | higherOrEqual => some 5
  | smallerOrEqual => some 6
  | higher => some 7
  | less => some 8
  | greaterOrEqual => some 9
  | lessOrEqual => some 10
  | greater => some 11
  | always => none

/-- The codes of the conditions of traps. -/
def trapCode : Condition → Option (BitVec 4)
  | lessOrEqual => some 4
  | greater => some 5
  | less => some 6
  | greaterOrEqual => some 7
  | smallerOrEqual => some 8
  | higher => some 9
  | smaller => some 10
  | higherOrEqual => some 11
  | equal => some 12
  | notEqual => some 13
  | overflow => some 14
  | always => some 15
  | noOverflow => none

/-- The codes of the conditions of `SET` instructions: those of traps, but for the last one. -/
def setCode : Condition → Option (BitVec 4)
  | noOverflow => some 15
  | always => none
  | k => k.trapCode

end Condition

/-! ## Decisions -/

/-- The offset of a branch: it is in the instruction word, or if bit 7 of that is set, also in the halfword after
it. -/
def encodedOffset (word first : Half) : Word :=
  if word.getLsbD 7 then longOffset word first else shortOffset word

/-- Whether two status registers have the same condition flags. -/
structure Status.SameFlags (s t : Status) : Prop where
  c : s.c = t.c
  z : s.z = t.z
  n : s.n = t.n
  v : s.v = t.v

/-- Conditions draw on the condition flags alone. -/
lemma Condition.holds_congr {s t : Status} (same : s.SameFlags t) (k : Condition) : k.holds s = k.holds t := by
  obtain ⟨c, z, n, v⟩ := same
  cases k <;> simp only [holds, c, z, n, v]

/-- The operand that counts as the status register is global register 1. -/
lemma Operand.eq_of_isSr {o : Operand} (named : o.isSr = true) : o = ⟨.globals, Global.sr⟩ := by
  obtain ⟨bank, code⟩ := o
  simp only [isSr, Bool.and_eq_true, beq_iff_eq] at named
  obtain ⟨rfl, rfl⟩ := named
  rfl

/-- An instruction that decides by a condition, with the fields of its instruction word that are free. -/
inductive Decision where
  /-- A branch. -/
  | branch (offset : Byte)
  /-- A delayed branch. -/
  | delayedBranch (offset : Byte)
  /-- A trap. -/
  | trap (number : BitVec 6)
  /-- A `SET` instruction, which stores zero or else one, or all ones if it is to make a mask. -/
  | set (mask isLocal : Bool) (dst : BitVec 4)
  deriving DecidableEq, Repr

namespace Decision

/-- The code by which the decision names a condition, if it has one for it. -/
def code : Decision → Condition → Option (BitVec 4)
  | branch _ | delayedBranch _ => Condition.branchCode
  | trap _ => Condition.trapCode
  | set .. => Condition.setCode

/-- The instruction word with the code. -/
def word (code : BitVec 4) : Decision → Half
  | branch offset => (0xf#4 ++ code) ++ offset
  | delayedBranch offset => (0xe#4 ++ code) ++ offset
  | trap number => (0x3f#6 ++ code.extractLsb' 2 2) ++ (number ++ code.extractLsb' 0 2)
  | set mask isLocal dst => (0x2e#6 ++ BitVec.ofBool isLocal ++ BitVec.ofBool mask) ++ (dst ++ code)

/-- The register that a `SET` instruction stores to. -/
def dstOperand (isLocal : Bool) (dst : BitVec 4) : Operand := ⟨.ofBit isLocal, dst.toNat⟩

/-- The program counter is no destination. -/
def Defined : Decision → Prop
  | set _ isLocal dst => (dstOperand isLocal dst).isPc = false
  | _ => True

/-- What happens where the condition is met. A branch goes by the offset that its instruction word and the halfword
after it encode. -/
def Met (word first : Half) (c after : Cpu) : Decision → Prop
  | branch _ => after = c.branch (encodedOffset word first)
  | delayedBranch _ => after = c.delayedBranch (encodedOffset word first)
  | trap number => after = (c.enterTrap number.toNat).charge .controlTransfer
  | set mask isLocal dst =>
    after = (c.write (dstOperand isLocal dst) (if mask then BitVec.allOnes 32 else 1)).charge .alu

/-- What happens where the condition is not met. -/
def Unmet (c after : Cpu) : Decision → Prop
  | branch _ | delayedBranch _ => after = c.charge .branchNotTaken
  | trap _ => after = c.charge .controlTransfer
  | set _ isLocal dst => after = (c.write (dstOperand isLocal dst) 0).charge .alu

/-! ## Decoding decisions -/

/-- The high byte of an instruction word is its encoding. -/
lemma ofWord_append (high low : Byte) : Encoding.ofWord (high ++ low) = Encoding.ofByte high :=
  congrArg Encoding.ofByte BitVec.extractLsb'_append_eq_left

variable {k : Condition} {code : BitVec 4}

/-- The word of a branch is decoded to the branch on its condition. -/
lemma encoding_branch (named : k.branchCode = some code) (offset : Byte) :
    Encoding.ofWord ((branch offset).word code) = .plain (.branch k) := by
  refine (ofWord_append (0xf#4 ++ code) offset).trans ?_
  cases k <;> cases named <;> rfl

/-- The word of a delayed branch is decoded to the delayed branch on its condition. -/
lemma encoding_delayedBranch (named : k.branchCode = some code) (offset : Byte) :
    Encoding.ofWord ((delayedBranch offset).word code) = .plain (.delayedBranch k) := by
  refine (ofWord_append (0xe#4 ++ code) offset).trans ?_
  cases k <;> cases named <;> rfl

/-- The word of a trap is decoded to a trap. -/
lemma encoding_trap (named : k.trapCode = some code) (number : BitVec 6) :
    Encoding.ofWord ((trap number).word code) = .plain .trap := by
  refine (ofWord_append (0x3f#6 ++ code.extractLsb' 2 2) (number ++ code.extractLsb' 0 2)).trans ?_
  cases k <;> cases named <;> rfl

/-- The two fields of a trap are found in its word. -/
lemma splitTrap_word (code : BitVec 4) (number : BitVec 6) :
    splitTrap ((trap number).word code) = (number.toNat, code.toNat) := by
  have isNumber : ((trap number).word code).extractLsb' 2 6 = number :=
    (BitVec.extractLsb'_append_eq_of_add_le (by decide)).trans BitVec.extractLsb'_append_eq_left
  have upper : ((trap number).word code).extractLsb' 8 2 = code.extractLsb' 2 2 :=
    (BitVec.extractLsb'_append_eq_of_le (by decide)).trans BitVec.extractLsb'_append_eq_right
  have lower : ((trap number).word code).extractLsb' 0 2 = code.extractLsb' 0 2 :=
    (BitVec.extractLsb'_append_eq_of_add_le (by decide)).trans BitVec.extractLsb'_append_eq_right
  have whole : code.extractLsb' 2 2 ++ code.extractLsb' 0 2 = code := BitVec.extractLsb'_append_extractLsb'
  unfold splitTrap
  rw [isNumber, upper, lower, whole]

/-- The code of a trap stands for its condition. -/
lemma ofTrapCode_eq (named : k.trapCode = some code) : Condition.ofTrapCode code.toNat = some k := by
  cases k <;> cases named <;> rfl

/-- The word of a `SET` instruction is decoded to `SET` with its destination. -/
lemma encoding_set (mask isLocal : Bool) (dst : BitVec 4) :
    Encoding.ofWord ((set mask isLocal dst).word code) = ⟨.set, .ofBit isLocal, .ofBit isLocal⟩ := by
  refine (ofWord_append (0x2e#6 ++ BitVec.ofBool isLocal ++ BitVec.ofBool mask) (dst ++ code)).trans ?_
  cases isLocal <;> cases mask <;> rfl

/-- The five-bit field of a `SET` instruction holds the kind of value and the code. -/
lemma nField_set (mask isLocal : Bool) (dst : BitVec 4) :
    nField ((set mask isLocal dst).word code) = (BitVec.ofBool mask ++ code).toNat := by
  have upper : ((set mask isLocal dst).word code).extractLsb' 8 1 = BitVec.ofBool mask :=
    (BitVec.extractLsb'_append_eq_of_le (by decide)).trans BitVec.extractLsb'_append_eq_right
  have lower : ((set mask isLocal dst).word code).extractLsb' 0 4 = code :=
    (BitVec.extractLsb'_append_eq_of_add_le (by decide)).trans BitVec.extractLsb'_append_eq_right
  unfold nField
  rw [upper, lower]

/-- The destination of a `SET` instruction is found in its word. -/
lemma dstOperand_set (mask isLocal : Bool) (dst : BitVec 4) :
    (Encoding.ofWord ((set mask isLocal dst).word code)).dstOperand ((set mask isLocal dst).word code) =
      dstOperand isLocal dst := by
  have field : ((set mask isLocal dst).word code).extractLsb' 4 4 = dst :=
    (BitVec.extractLsb'_append_eq_of_add_le (by decide)).trans BitVec.extractLsb'_append_eq_left
  rw [encoding_set]
  unfold Encoding.dstOperand
  rw [field]
  rfl

/-- The five-bit field stands for a test of the condition, with one or all ones as value. -/
lemma ofCode_eq (named : k.setCode = some code) (mask : Bool) :
    SetValue.ofCode (BitVec.ofBool mask ++ code).toNat =
      some (.test k (if mask then BitVec.allOnes 32 else 1)) := by
  cases k <;> cases named <;> cases mask <;> rfl

/-- What happens by whether the condition is met. -/
def Goes (word first : Half) (c after : Cpu) (decision : Decision) : Bool → Prop
  | true => decision.Met word first c after
  | false => decision.Unmet c after

variable {β : Type} [Bus β]

/-- The offset that is fetched is the one that is encoded. -/
lemma offset_finds (word : Half) :
    Decode.FindsBy (fun first value => value = encodedOffset word first) (Decode.offset word : Decode β Word) := by
  intro cursor b
  unfold Decode.offset encodedOffset
  split
  · rfl
  · rfl

/-- A branch is taken with its encoded offset or passed over. -/
lemma ofBranch_finds (word : Half) (taken : Bool) (branch : Word → Instruction) :
    Decode.FindsBy
      (fun first i => (taken = true ∧ i = branch (encodedOffset word first)) ∨ (taken = false ∧ i = .fallThrough))
      (Instruction.ofBranch word taken branch : Decode β Instruction) := by
  unfold Instruction.ofBranch
  cases taken with
  | true => exact (offset_finds word).map branch fun _ _ is => .inl ⟨rfl, congrArg branch is⟩
  | false => exact fun _ _ => .inr ⟨rfl, rfl⟩

/-- Executing a decision does as its condition holds. -/
lemma decode_goes (decision : Decision) (named : decision.code k = some code) (defined : decision.Defined)
    (m : Machine β) (address : Word) :
    Decode.FindsBy (fun first found => ∃ i after, found = some i ∧
        (Machine.execute i).run m = ((), ⟨after, m.bus⟩) ∧
        decision.Goes (decision.word code) first m.cpu after (k.holds m.cpu.status))
      (Instruction.decode address (decision.word code) m.cpu.status : Decode β (Option Instruction)) := by
  unfold Instruction.decode
  dsimp only
  -- The set of an operation fixes how its word is decoded; what is found is then executed on `m` as it is.
  cases decision with
  | branch offset =>
    rw [encoding_branch named]
    refine (ofBranch_finds _ _ .branch).map some fun first i found => ?_
    obtain ⟨met, rfl⟩ | ⟨unmet, rfl⟩ := found
    · exact ⟨_, _, rfl, rfl, met ▸ rfl⟩
    · exact ⟨_, _, rfl, rfl, unmet ▸ rfl⟩
  | delayedBranch offset =>
    rw [encoding_delayedBranch named]
    refine (ofBranch_finds _ _ .delayedBranch).map some fun first i found => ?_
    obtain ⟨met, rfl⟩ | ⟨unmet, rfl⟩ := found
    · exact ⟨_, _, rfl, rfl, met ▸ rfl⟩
    · exact ⟨_, _, rfl, rfl, unmet ▸ rfl⟩
  | trap number =>
    rw [encoding_trap named, splitTrap_word]
    dsimp only
    rw [ofTrapCode_eq named]
    refine .pure fun first => ⟨_, m.cpu.trap number.toNat (some k), rfl, rfl, ?_⟩
    unfold Cpu.trap
    rw [Option.any_some]
    cases k.holds m.cpu.status with
    | true => rfl
    | false => rfl
  | set mask isLocal dst =>
    rw [dstOperand_set, encoding_set]
    dsimp only
    unfold Instruction.ofSet
    rw [if_neg (ne_true_of_eq_false defined), nField_set, ofCode_eq named]
    refine .pure fun first => ⟨_, m.cpu.set (dstOperand isLocal dst) _, rfl, rfl, ?_⟩
    unfold Cpu.set
    dsimp only
    cases k.holds m.cpu.status with
    | true => rfl
    | false => rfl

/-- A `SET` instruction stores another word where its condition is met than where it is not. -/
lemma write_set_ne (c : Cpu) {isLocal : Bool} {dst : BitVec 4} (defined : (dstOperand isLocal dst).isPc = false)
    {value : Word} (odd : value.getLsbD 0 = true) :
    (c.write (dstOperand isLocal dst) value).regs ≠ (c.write (dstOperand isLocal dst) 0).regs := by
  intro same
  cases isSr : (dstOperand isLocal dst).isSr with
  | true =>
    -- Bit 0 of the status register is its carry flag.
    rw [Operand.eq_of_isSr isSr] at same
    have carry : value.getLsbD 0 = false := congrArg (·.status.c) same
    rw [odd] at carry
    cases carry
  | false =>
    have general : (dstOperand isLocal dst).IsGeneral :=
      Operand.IsGeneralField.isGeneral ⟨dst.isLt, defined, isSr⟩
    have stored : (c.write (dstOperand isLocal dst) value).read (dstOperand isLocal dst) =
        (c.write (dstOperand isLocal dst) 0).read (dstOperand isLocal dst) := by
      unfold Cpu.read
      rw [same]
    rw [Cpu.read_write general, Cpu.read_write general] at stored
    rw [stored] at odd
    cases odd

/-- A taken branch takes more time than one that is passed over. -/
lemma branch_ne (c : Cpu) (offset : Word) : c.branch offset ≠ c.charge .branchNotTaken := by
  intro same
  have time : c.cycles + c.cost .branchTaken = c.cycles + c.cost .branchNotTaken := congrArg Cpu.cycles same
  have longer : c.cost .branchNotTaken < c.cost .branchTaken := by
    rw [c.cost_eq, c.cost_eq, Nat.shiftLeft_eq, Nat.shiftLeft_eq]
    exact Nat.mul_lt_mul_of_pos_right (by decide) (Nat.two_pow_pos _)
  omega

/-- A delayed branch leaves a target, and one that is passed over leaves what was pending. -/
lemma delayedBranch_ne {c : Cpu} (idle : c.delay.target = none) (offset : Word) :
    c.delayedBranch offset ≠ c.charge .branchNotTaken := by
  intro same
  have target : some (c.regs.pc + offset) = c.delay.target := congrArg (·.delay.target) same
  rw [idle] at target
  cases target

/-- A trap that is taken is noted as an entry. -/
lemma enterTrap_ne (c : Cpu) (number : Nat) :
    (c.enterTrap number).charge .controlTransfer ≠ c.charge .controlTransfer := by
  intro same
  obtain ⟨e, enters, -⟩ := c.enterFrame_frame (.trap number) (c.entry.vector number) 6
  have charged (d : Cpu) : (d.charge .controlTransfer).entries = d.entries := rfl
  have entries := congrArg Cpu.entries same
  rw [charged, charged] at entries
  have pushed : (c.enterTrap number).entries = c.entries.push e := enters.entries
  exact Cpu.push_ne c.entries e (pushed.symm.trans entries)

/-- A condition is not both met and unmet, unless the target of a delayed branch is pending: no decision does the
same in both cases. -/
lemma not_unmet_of_met {decision : Decision} (defined : decision.Defined) {word first : Half} {c after : Cpu}
    (idle : c.delay.target = none) (met : decision.Met word first c after) : ¬ decision.Unmet c after := by
  intro unmet
  cases decision with
  | branch offset => exact branch_ne c _ (Eq.trans (Eq.symm met) unmet)
  | delayedBranch offset => exact delayedBranch_ne idle _ (Eq.trans (Eq.symm met) unmet)
  | trap number => exact enterTrap_ne c _ (Eq.trans (Eq.symm met) unmet)
  | set mask isLocal dst =>
    -- What is stored for a met condition is odd, and zero is not.
    have odd : (if mask then BitVec.allOnes 32 else 1 : Word).getLsbD 0 = true := by cases mask <;> rfl
    have regs := congrArg Cpu.regs (Eq.trans (Eq.symm met) unmet)
    exact write_set_ne c defined odd regs

end Decision

/-! ## Comparisons -/

namespace Cpu

/-- The word that a source supplies to a comparison: the status register stands for its carry flag. -/
def Supplies (c : Cpu) (s : Word) : Source → Prop
  | .register o => if o = ⟨.globals, Global.sr⟩ then s = ofFlag c.status.c else s = c.read o
  | .literal value => s = value

/-- A comparison reads what its source supplies. -/
lemma sourceArith_supplies (c : Cpu) (src : Source) : c.Supplies (c.sourceArith src) src := by
  cases src with
  | literal value => rfl
  | register o =>
    show if o = ⟨.globals, Global.sr⟩ then c.readArith o = ofFlag c.status.c else c.readArith o = c.read o
    unfold readArith
    split
    next isStatus =>
      rw [isStatus]
      rfl
    next other => exact if_neg fun isSr => other (Operand.eq_of_isSr isSr)

end Cpu

namespace Machine

variable {β : Type} [Bus β]

/-- What a comparison of `d` with `s` leaves: the condition flags and nothing else has changed, and as long as they
stay as they are, every decision falls as the two words compare as numbers. -/
structure Compared (m : Machine β) (d s : Word) (after : Cpu) : Prop where
  touches : Cpu.Touches m.cpu [] (m.cpu.cost .alu) after
  status : after.status =
    { m.cpu.status with c := after.status.c, z := after.status.z, n := after.status.n, v := after.status.v }
  flags (k : Condition) : k.holds after.status = true ↔ k.Relates d s
  decides {decision : Decision} {k : Condition} {code : BitVec 4} (named : decision.code k = some code)
    (defined : decision.Defined) (later : Machine β) (same : later.cpu.status.SameFlags after.status)
    (address : Word) :
    Decode.FindsBy (fun first found => ∃ i done, found = some i ∧
        (execute i).run later = ((), ⟨done, later.bus⟩) ∧
        (k.Relates d s → decision.Met (decision.word code) first later.cpu done) ∧
        (¬k.Relates d s → decision.Unmet later.cpu done) ∧
        (later.cpu.delay.target = none →
          ¬(decision.Met (decision.word code) first later.cpu done ∧ decision.Unmet later.cpu done)))
      (Instruction.decode address (decision.word code) later.cpu.status : Decode β (Option Instruction))

/-- A comparison leaves what decides everything after it. -/
lemma compare_compared (m : Machine β) (dst : Operand) (src : Source) :
    Compared m (m.cpu.read dst) (m.cpu.sourceArith src) (m.cpu.compare dst src) where
  touches := .charge (.modifyStatus (Cpu.Touches.refl m.cpu) fun _ => by rfl) .alu
  status := rfl
  flags k := k.holds_compareFlags _ _ _
  decides := by
    intro decision k code named defined later same address
    refine (decision.decode_goes named defined later address).mono ?_
    rintro first found ⟨i, done, rfl, run, goes⟩
    refine ⟨i, done, rfl, run, ?_⟩
    rw [← and_assoc]
    refine ⟨?_, fun idle both => Decision.not_unmet_of_met defined idle both.1 both.2⟩
    have falls : k.holds later.cpu.status = true ↔ k.Relates (m.cpu.read dst) (m.cpu.sourceArith src) := by
      rw [k.holds_congr same]
      exact k.holds_compareFlags _ _ _
    cases met : k.holds later.cpu.status with
    | true =>
      rw [met] at goes falls
      exact ⟨fun _ => goes, fun unrelated => absurd (falls.mp rfl) unrelated⟩
    | false =>
      rw [met] at goes falls
      exact ⟨fun related => absurd (falls.mpr related) Bool.false_ne_true, fun _ => goes⟩

/-- Comparisons with a register and with a literal order numbers: each decision that follows one, in whatever way it
names its condition, falls as the condition relates the two words as numbers. Comparisons change nothing but the
condition flags. -/
theorem compare_decides (m : Machine β) (address : Word) {word : Half}
    (compares : (Encoding.ofWord word).operation = .cmp ∨ (Encoding.ofWord word).operation = .cmpi) :
    let dst := (Encoding.ofWord word).dstOperand word
    Decode.Finds (fun found => ∃ src s after, found = some (.compare dst src) ∧
        ((Encoding.ofWord word).operation = .cmp → src = .register ((Encoding.ofWord word).srcOperand word)) ∧
        ((Encoding.ofWord word).operation = .cmpi → ∃ value, src = .literal value) ∧
        m.cpu.Supplies s src ∧ (execute (.compare dst src)).run m = ((), ⟨after, m.bus⟩) ∧
        Compared m (m.cpu.read dst) s after)
      (Instruction.decode address word m.cpu.status : Decode β (Option Instruction)) := by
  intro dst
  have compared (src : Source) := m.compare_compared dst src
  have supplies (src : Source) := m.cpu.sourceArith_supplies src
  unfold Instruction.decode
  dsimp only
  generalize (Encoding.ofWord word).operation = operation at compares
  obtain rfl | rfl := compares
  · exact .pure ⟨_, _, _, rfl, fun _ => rfl, nofun, supplies _, rfl, compared _⟩
  · exact .bind _ fun value => .pure ⟨_, _, _, rfl, nofun, fun _ => ⟨value, rfl⟩, supplies _, rfl, compared _⟩

/-- A machine that is to compare local register 0, which holds the least signed number, with register 1, which
holds 1. -/
def leastAndOne : Machine (DeviceBus FlatMemory) :=
  (powerOn Variant.e132t.config {}).session
    [.host .reset, .host (.setLocal 0 0x80000000), .host (.setLocal 1 1)]

/-- The difference of these is out of range. Nevertheless the branch on less is taken after the comparison, by its
offset of 4. -/
theorem leastAndOne_decided :
    ∃ after,
      (execute (.compare ⟨.locals, 0⟩ (.register ⟨.locals, 1⟩))).run leastAndOne =
        ((), ⟨after, leastAndOne.bus⟩) ∧
      after.status.v = true ∧
      Decode.Finds (fun found => ∃ i done, found = some i ∧
          (execute i).run ⟨after, leastAndOne.bus⟩ = ((), ⟨done, leastAndOne.bus⟩) ∧ done = after.branch 4)
        (Instruction.decode 0x1002 0xf804 after.status : Decode (DeviceBus FlatMemory) (Option Instruction)) := by
  have compares : (Encoding.ofWord 0x2301).operation = .cmp := by decide
  have isDst : (Encoding.ofWord 0x2301).dstOperand 0x2301 = ⟨.locals, 0⟩ := by decide
  have isSrc : (Encoding.ofWord 0x2301).srcOperand 0x2301 = ⟨.locals, 1⟩ := by decide
  have least : leastAndOne.cpu.read ⟨.locals, 0⟩ = 0x80000000 := by decide +kernel
  have one : leastAndOne.cpu.read ⟨.locals, 1⟩ = 1 := by decide +kernel
  obtain ⟨src, s, after, -, isRegister, -, supplies, run, compared⟩ :=
    compare_decides leastAndOne 0x1000 (.inl compares) ⟨0x1002, 1⟩ leastAndOne.bus
  rw [isDst] at run compared
  rw [isRegister compares, isSrc] at run supplies
  obtain rfl : s = 1 := supplies.trans one
  rw [least] at compared
  have less : Condition.Relates (0x80000000 : Word) 1 .less := by
    show (0x80000000 : Word).toInt < (1 : Word).toInt
    decide
  have named : (Decision.branch 4).code .less = some 8 := rfl
  refine ⟨after, run, (compared.flags .overflow).mpr ?_, ?_⟩
  · show (0x80000000 : Word).toInt - (1 : Word).toInt ∉ Set.Ico (-2 ^ 31) (2 ^ 31)
    decide
  · intro cursor bus
    obtain ⟨i, done, found, run, met, -⟩ :=
      compared.decides named trivial ⟨after, leastAndOne.bus⟩ ⟨rfl, rfl, rfl, rfl⟩ 0x1002 cursor bus
    exact ⟨i, done, found, run, met less⟩

end Machine

end E1Machine
