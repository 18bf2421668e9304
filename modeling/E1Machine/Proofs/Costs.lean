import Mathlib
import E1Machine.Proofs.DelaySlots
import E1Machine.Proofs.OperandRanges
import E1Machine.Proofs.TimerWrites

/-!
# Documented costs

Each class of costs names the operations that belong to it, and `Operation.documented` gives the class in which an
operation is named. What an instruction is charged when it executes is a class too, `Instruction.charged`. It is
all that the instruction spends, unless a handler is entered (`Machine.execute_pays`). So the cost is the documented
one where decoding finds an instruction that is charged by its class.

That is so for every operation but some that are named with the double-word moves and charged like the shifts of
one register (`Operation.undercharged`).

Main statement: `Machine.cost_documented_iff`.
-/

namespace E1Machine

/-! ## Classes -/

/-- Whether a word is a signed number of sixteen bits. -/
def IsShort (w : Word) : Prop := -0x8000 ≤ w.toInt ∧ w.toInt < 0x8000

/-- Whether a word is short can be decided by its number. -/
instance : DecidablePred IsShort := fun w => inferInstanceAs (Decidable (-0x8000 ≤ w.toInt ∧ w.toInt < 0x8000))

/-- The displacement in an instruction of two halfwords or three. -/
def Displacement.ofHalves (first second : Half) : Displacement :=
  ⟨first.extractLsb' 12 2, if first.msb then longDisplacement first second else shortDisplacement first⟩

/-- The class of a transfer with a displacement: kind 3 is a transfer of words, and moves two of them or the word of
a stack as its low bits say. -/
def Displacement.transferClass (d : Displacement) (stack : Bool) : CostClass :=
  match d.subType.toNat, (d.value.extractLsb' 0 2).toNat with
  | 3, 1 => .memoryDouble
  | 3, 3 => if stack then .memoryStack else .memoryDouble
  | _, _ => .memoryWord

namespace Operation

/-- The class in whose description an operation is named. It depends on the status register, on the register in the
destination field, on the values `x` and `y` of destination and source, and on the displacement. Reserved codes are
named nowhere and stand with the arithmetic. -/
def documented (status : Status) (dst : Operand) (x y : Word) (d : Displacement) : Operation → CostClass
  | movd => if dst.isPc then .controlTransfer else .doubleAlu
  | shrdi | shrd | sardi | sard | shldi | shld | testlz => .doubleAlu
  | branch condition => if condition.holds status then .branchTaken else .branchNotTaken
  | br => .branchTaken
  | delayedBranch condition => if condition.holds status then .delayedBranchTaken else .branchNotTaken
  | dbr => .delayedBranchTaken
  | call | frame | trap => .controlTransfer
  | loadDisplacement | storeDisplacement => d.transferClass false
  | loadNext | storeNext => d.transferClass true
  | ldwR | ldwP | stwR | stwP => .memoryWord
  | lddR | lddP | stdR | stdP => .memoryDouble
  | mul => if IsShort x ∧ IsShort y then .mulShort else .mulLong
  | mulu => if x.toNat < 0x10000 ∧ y.toNat < 0x10000 then .mulDoubleShort else .mulDoubleLong
  | muls => if IsShort x ∧ IsShort y then .mulDoubleShort else .mulDoubleLong
  | divu | divs => .divide
  | extend => .extend
  | software => .softwareEntry
  | _ => .alu

/-- The shifts of register pairs and the count of leading zeros. -/
def undercharged : Operation → Bool
  | shrdi | shrd | sardi | sard | shldi | shld | testlz => true
  | _ => false

/-- The class that is charged for an operation. -/
def charged (status : Status) (dst : Operand) (x y : Word) (d : Displacement) (o : Operation) : CostClass :=
  if o.undercharged then .alu else o.documented status dst x y d

/-- What is undercharged is named among the double operations. -/
lemma documented_of_undercharged {o : Operation} (undercharged : o.undercharged = true) (status : Status)
    (dst : Operand) (x y : Word) (d : Displacement) : o.documented status dst x y d = .doubleAlu := by
  cases o with
  | shrdi | shrd | sardi | sard | shldi | shld | testlz => rfl
  | _ => cases undercharged

end Operation

/-- The class that an instruction is charged by when it executes. -/
def Instruction.charged (c : Cpu) : Instruction → CostClass
  | moveDouble _ _ => .doubleAlu
  | ret _ | frame _ _ | call _ _ _ | trap _ _ => .controlTransfer
  | divide _ _ _ => .divide
  | load form _ _ | store form _ _ => form.cost
  | reservedTransfer _ _ _ => .memoryWord
  | multiply kind dst src => Cpu.productCost kind (c.read dst) (c.read src)
  | emulate _ _ _ => .softwareEntry
  | accumulate _ _ _ => .extend
  | delayedBranch _ => .delayedBranchTaken
  | branch _ => .branchTaken
  | fallThrough => .branchNotTaken
  | undefined _ cost => cost
  | _ => .alu

/-- Whether an operand is another register than the prescaler, which alone changes the scale. -/
def Operand.SparesPrescaler (o : Operand) : Prop := o.bank = .globals → o.code % 32 ≠ Global.tpr

/-- Whether an operand spares the prescaler can be decided by its code. -/
instance (o : Operand) : Decidable o.SparesPrescaler :=
  inferInstanceAs (Decidable (o.bank = .globals → o.code % 32 ≠ Global.tpr))

/-- Whether an instruction writes other registers only. -/
def Instruction.SparesPrescaler (i : Instruction) : Prop := ∀ o ∈ i.targets, o.SparesPrescaler

/-- Whether an instruction spares the prescaler can be decided by its targets. -/
instance (i : Instruction) : Decidable i.SparesPrescaler :=
  inferInstanceAs (Decidable (∀ o ∈ i.targets, o.SparesPrescaler))

/-! ## What decoding finds -/

/-- The kinds of transfer are charged as their displacement says. -/
lemma DataForm.withOffset_cost (d : Displacement) : (DataForm.withOffset d).cost = d.transferClass false := by
  unfold DataForm.withOffset Displacement.transferClass
  generalize d.subType = kind
  generalize d.value.extractLsb' 0 2 = low
  revert kind low
  decide

/-- A transfer that advances its address is charged by the kind of its displacement, a reserved kind as a word. -/
lemma DataForm.advancing_cost (d : Displacement) :
    ((DataForm.advancing d).map DataForm.cost).getD .memoryWord = d.transferClass true := by
  unfold DataForm.advancing DataForm.withOffset Displacement.transferClass
  generalize d.subType = kind
  generalize d.value.extractLsb' 0 2 = low
  revert kind low
  decide

/-- The high half of a word is zero exactly if the word is less than 2^16. -/
lemma highHalf_eq_zero_iff (w : Word) : highHalf w == 0 ↔ w.toNat < 0x10000 := by
  rw [beq_iff_eq, ← BitVec.toNat_inj]
  unfold highHalf
  rw [BitVec.extractLsb'_toNat, Nat.shiftRight_eq_div_pow]
  have bound := w.isLt
  show w.toNat / 2 ^ 16 % 2 ^ 16 = 0 ↔ _
  omega

/-- A word fits in sixteen bits with a sign exactly if its number does. -/
lemma fitsHalf_iff (w : Word) : fitsSigned 16 w ↔ IsShort w := by
  have range := @fitsSigned_iff 15 (by decide) w
  norm_num at range
  exact range

/-- The class of a product depends on the range of its factors. -/
lemma productCost_documented (status : Status) (dst : Operand) (x y : Word) (d : Displacement) :
    Cpu.productCost .unsignedDouble x y = Operation.mulu.documented status dst x y d ∧
    Cpu.productCost .signedDouble x y = Operation.muls.documented status dst x y d ∧
    Cpu.productCost .single x y = Operation.mul.documented status dst x y d := by
  have short : (fitsSigned 16 x && fitsSigned 16 y) = true ↔ IsShort x ∧ IsShort y := by
    rw [Bool.and_eq_true, fitsHalf_iff, fitsHalf_iff]
  have low : (highHalf x == 0 && highHalf y == 0) = true ↔ x.toNat < 0x10000 ∧ y.toNat < 0x10000 := by
    rw [Bool.and_eq_true, highHalf_eq_zero_iff, highHalf_eq_zero_iff]
  exact ⟨if_congr low rfl rfl, if_congr short rfl rfl, if_congr short rfl rfl⟩

namespace Decode

variable {β : Type} [Bus β]

/-- An instruction that is found is charged by a class, unless it is a product with a special register. -/
def Charges (c : Cpu) (kind : CostClass) (found : Option Instruction) : Prop :=
  ∀ i, found = some i → (∀ word cost, i ≠ .undefined (.multiplyOperands word) cost) → i.charged c = kind

variable {c : Cpu} {kind : CostClass}

/-- An instruction is charged by its own class. -/
lemma Charges.some {i : Instruction} (charged : i.charged c = kind) : Charges c kind (some i) := by
  intro j found _
  cases found
  exact charged

/-- A division is charged as one, with restricted operands also. -/
lemma ofDivision_charges (word : Half) (dst src : Operand) (signed : Bool) :
    Charges c .divide (some (Instruction.ofDivision word dst src signed)) := by
  unfold Instruction.ofDivision
  split <;> exact .some rfl

/-- A shift of a pair is charged as a shift of a register. -/
lemma ofDoubleShift_charges (word : Half) (kind : ShiftKind) (dst src : Operand) :
    Charges c .alu (some (Instruction.ofDoubleShift word kind dst src)) := by
  unfold Instruction.ofDoubleShift
  split <;> exact .some rfl

/-- An index move is charged as arithmetic. -/
lemma ofIndexMove_charges (word : Half) (dst src : Operand) (index : IndexLimit) :
    Charges c .alu (some (Instruction.ofIndexMove word dst src index)) := by
  unfold Instruction.ofIndexMove
  split <;> exact .some rfl

/-- A `SET` instruction is charged as arithmetic. -/
lemma ofSet_charges (word : Half) (dst : Operand) : Charges c .alu (some (Instruction.ofSet word dst)) := by
  unfold Instruction.ofSet
  split
  · exact .some rfl
  · split <;> exact .some rfl

/-- A signal-processing instruction is charged as one, whatever its function. -/
lemma ofFunction_charges (function : Half) (dst src : Operand) :
    Charges c .extend (some (Instruction.ofFunction function dst src)) := by
  unfold Instruction.ofFunction
  split <;> exact .some rfl

/-- A move is charged as arithmetic, also if it is refused. -/
lemma ofMove_charges (status : Status) (dst src : Operand) :
    Charges c .alu (some (Instruction.ofMove status dst src)) := by
  unfold Instruction.ofMove
  split <;> exact .some rfl

/-- A product is charged by its factors. -/
lemma ofProduct_charges {word : Half} {product : ProductKind} {dst src : Operand} {x y : Word}
    (first : dst.isPc = false → c.read dst = x) (second : src.isPc = false → c.read src = y) :
    Charges c (Cpu.productCost product x y) (some (Instruction.ofProduct word product dst src)) := by
  unfold Instruction.ofProduct
  split
  · intro j found general
    cases found
    exact absurd rfl (general _ _)
  · next general =>
    rw [not_or, not_or, not_or] at general
    obtain ⟨notPc, -, notPc', -⟩ := general
    refine .some ?_
    show Cpu.productCost product (c.read dst) (c.read src) = _
    rw [first (Bool.eq_false_iff.mpr notPc), second (Bool.eq_false_iff.mpr notPc')]

/-- A transfer that advances is charged by its displacement, even if its operands are undefined or the transfer is
reserved. -/
lemma ofAdvance_charges {transfer : DataForm → Addressing → Operand → Instruction}
    (charged : ∀ form addressing data, (transfer form addressing data).charged c = form.cost)
    (report : Diagnostic) (word : Half) (address data : Operand) (d : Displacement) :
    Charges c (d.transferClass true) (some (Instruction.ofAdvance transfer report word address data d)) := by
  rw [← DataForm.advancing_cost]
  unfold Instruction.ofAdvance
  dsimp only
  split
  · exact .some rfl
  · split
    · next form eq =>
      rw [eq]
      exact .some (charged _ _ _)
    · next eq =>
      rw [eq]
      exact .some rfl

variable {β : Type} [Bus β]

/-- A move of a literal is charged as arithmetic, also if it is refused. -/
lemma ofMoveImmediate_charges (word : Half) (status : Status) (dst : Operand) :
    Finds (fun i => Charges c .alu (some i))
      (Instruction.ofMoveImmediate word status dst : Decode β Instruction) := by
  unfold Instruction.ofMoveImmediate
  split
  · exact .bind _ fun _ => .pure (.some rfl)
  · exact .bind _ fun _ => .pure (.some rfl)

/-- A branch is charged by whether it is taken. -/
lemma ofBranch_charges (word : Half) (taken : Bool) (branch : Word → Instruction)
    (charged : ∀ offset, (if taken then (branch offset).charged c else .branchNotTaken) = kind) :
    Finds (fun i => Charges c kind (some i))
      (Instruction.ofBranch word taken branch : Decode β Instruction) := by
  unfold Instruction.ofBranch
  cases taken with
  | true => exact .bind _ fun offset => .pure (.some (charged offset))
  | false => exact .bind _ fun _ => .pure (.some (charged 0))

/-- The displacement that an instruction has after its word, at an address. -/
def displacementAt (pc : Word) (b : β) : Displacement :=
  let first := (Bus.fetch pc).run b
  .ofHalves first.1 ((Bus.fetch (pc + 2)).run first.2).1

/-- The displacement is read from the halfwords after the word. -/
lemma displacement_found (pc : Word) (b : β) :
    (((displacement : Decode β Displacement).run ⟨pc, 1⟩).run b).1.1 = displacementAt pc b := by
  unfold displacementAt Displacement.ofHalves
  dsimp only
  cases long : ((Bus.fetch pc).run b).1.msb with
  | false =>
    have read := reads_one (fun first => (⟨first.extractLsb' 12 2, shortDisplacement first⟩ : Displacement))
      (fun first second => ⟨first.extractLsb' 12 2, longDisplacement first second⟩) long β pc b rfl
    exact congrArg (·.1.1) read
  | true =>
    have read := reads_two (fun first => (⟨first.extractLsb' 12 2, shortDisplacement first⟩ : Displacement))
      (fun first second => ⟨first.extractLsb' 12 2, longDisplacement first second⟩) long
      ((Bus.fetch (pc + 2)).run ((Bus.fetch pc).run b).2).1 β pc b rfl
    exact congrArg (·.1.1) read

/-- What decoding finds is charged by the class of its operation. The processor that is charged holds what `d`
holds, apart from the program counter. -/
lemma decode_charges {d : Cpu} (same : ∀ o : Operand, o.code < 16 → o.isPc = false → c.read o = d.read o)
    (address : Word) (word : Half) (status : Status) (pc : Word) (b : β) :
    let dst := (Encoding.ofWord word).dstOperand word
    let src := (Encoding.ofWord word).srcOperand word
    Charges c ((Encoding.ofWord word).operation.charged status dst (d.read dst) (d.read src)
        (displacementAt pc b))
      (((Instruction.decode address word status : Decode β (Option Instruction)).run ⟨pc, 1⟩).run b).1.1 := by
  intro dst src
  obtain ⟨dstField, srcField⟩ := fields_lt word
  have first := same dst dstField
  have second := same src srcField
  have product {product : ProductKind} {kind : CostClass}
      (documented : Cpu.productCost product (d.read dst) (d.read src) = kind) :
      Charges c kind (some (Instruction.ofProduct word product dst src)) :=
    documented ▸ ofProduct_charges first second
  obtain ⟨mulu, muls, mul⟩ := productCost_documented status dst (d.read dst) (d.read src) (displacementAt pc b)
  -- Only a transfer with a displacement is charged by what the bus holds after the word.
  have displaced {kind : CostClass} {next : Displacement → Instruction}
      (charges : Charges c kind (some (next (displacementAt pc b)))) :
      Charges c kind (((displacement >>= fun d => pure (some (next d)) : Decode β (Option Instruction)).run
        ⟨pc, 1⟩).run b).1.1 := by
    rw [← displacement_found] at charges
    exact charges
  have wherever {kind : CostClass} {x : Decode β (Option Instruction)} (charges : Finds (Charges c kind) x) :
      Charges c kind ((x.run ⟨pc, 1⟩).run b).1.1 := charges _ _
  unfold Instruction.decode
  dsimp only
  cases (Encoding.ofWord word).operation with
  | movd =>
    refine wherever (.pure ?_)
    show Charges c (if dst.isPc then .controlTransfer else .doubleAlu) _
    cases isPc : dst.isPc with
    | false => exact .some rfl
    | true =>
      refine .some ?_
      rw [Bool.not_true, if_neg Bool.false_ne_true]
      split <;> rfl
  | divu | divs => exact wherever (.pure (ofDivision_charges word dst src _))
  | xm => exact wherever (.bind _ fun index => .pure (ofIndexMove_charges word dst src index))
  | mask | sum | sums | call => exact wherever (.bind _ fun _ => .pure (.some rfl))
  | mov => exact wherever (.pure (ofMove_charges status dst src))
  | movi => exact wherever ((ofMoveImmediate_charges word status dst).map some fun _ => id)
  | cmpi | ori | xori => exact wherever (.bind _ fun _ => .pure (.some rfl))
  | addi | addsi | cmpbi | andni =>
    refine wherever ?_
    dsimp only
    split
    · exact .pure (.some rfl)
    · exact .bind _ fun _ => .pure (.some rfl)
  | shrd | sard | shld => exact wherever (.pure (ofDoubleShift_charges word _ dst src))
  | loadDisplacement | storeDisplacement => exact displaced (.some (DataForm.withOffset_cost _))
  | loadNext | storeNext => exact displaced (ofAdvance_charges (fun _ _ _ => rfl) _ word dst src _)
  | mulu => exact wherever (.pure (product mulu))
  | muls => exact wherever (.pure (product muls))
  | mul => exact wherever (.pure (product mul))
  | set => exact wherever (.pure (ofSet_charges word dst))
  | extend => exact wherever (.bind _ fun function => .pure (ofFunction_charges function dst src))
  | delayedBranch | dbr =>
    exact wherever ((ofBranch_charges word _ .delayedBranch fun _ => rfl).map some fun _ => id)
  | branch | br => exact wherever ((ofBranch_charges word _ .branch fun _ => rfl).map some fun _ => id)
  | unimplemented => exact fun i found => nomatch found
  | _ => exact wherever (.pure (.some rfl))

end Decode

/-! ## What an instruction pays -/

namespace Cpu

/-- One processor leads to another in so many clocks, unless a handler is entered on the way. -/
def Pays (clocks : Nat) (c d : Cpu) : Prop :=
  c.entries.size < d.entries.size ∨
    d.entries = c.entries ∧ d.timer.scale = c.timer.scale ∧
      d.cycles = c.cycles + clocks <<< c.timer.scale.toNat

/-- While the timer idles its scale stays. -/
lemma Idles.scale {c d : Cpu} (idles : Idles c d) : d.timer.scale = c.timer.scale := by
  obtain same | taken := idles.timer
  · rw [same]
  · rw [taken]

/-- Scheduling a callback keeps the scale. -/
lemma reschedule_scale (c : Cpu) : c.reschedule.timer.scale = c.timer.scale := by
  obtain ⟨deadline, scheduled⟩ := c.reschedule_changes
  rw [scheduled]

/-- Only a write of the prescaler changes the scale. -/
lemma setGlobal_scale (c : Cpu) {code : Nat} (other : code % 32 ≠ Global.tpr) (value : Word) :
    (c.setGlobal code value).timer.scale = c.timer.scale := by
  obtain idles | ⟨d, replaces, after⟩ := c.setGlobal_timer code value
  · exact idles.scale
  · refine after.scale.trans (d.reschedule_scale.trans ?_)
    cases replaces with
    | deferred named | immediate named => exact absurd named other
    | compare | ticks | control => rfl

namespace Pays

variable {n : Nat} {c d e : Cpu}

/-- A processor that does nothing pays nothing. -/
lemma refl : Pays 0 c c := .inr ⟨rfl, rfl, by rw [Nat.zero_shiftLeft]; rfl⟩

/-- The log of entries only grows. -/
lemma grows (pays : Pays n c d) : c.entries.size ≤ d.entries.size := by
  obtain more | ⟨same, -⟩ := pays
  · exact Nat.le_of_lt more
  · rw [same]

/-- An entry counts for any number of clocks. -/
lemma ofEnters (grows : c.entries.size ≤ d.entries.size) (enters : Enters d e) (n : Nat) : Pays n c e := by
  obtain ⟨regs, lastPc, k, entry, -, -, -, rfl⟩ := enters
  left
  show _ < (d.entries.push entry).size
  rw [Array.size_push]
  exact Nat.lt_succ_of_le grows

/-- After the entry of a handler any price will do. -/
lemma enters (pays : Pays n c d) (enters : Enters d e) (n' : Nat) : Pays n' c e :=
  .ofEnters pays.grows enters n'

/-- The class is charged last, or in the end comes after an entry. -/
lemma charge (pays : Pays 0 c d) (kind : CostClass) : Pays kind.clocks c (d.charge kind) := by
  obtain more | ⟨entries, scale, cycles⟩ := pays
  · exact .inl more
  · refine .inr ⟨entries, scale, ?_⟩
    show d.cycles + d.cost kind = _
    rw [cost_eq, scale, cycles, Nat.zero_shiftLeft]
    rfl

variable (pays : Pays n c d)
include pays

/-- What changes neither log, scale nor time costs nothing. -/
lemma quiet (entries : e.entries = d.entries) (scale : e.timer.scale = d.timer.scale)
    (cycles : e.cycles = d.cycles) : Pays n c e := by
  unfold Pays
  rw [entries, scale, cycles]
  exact pays

/-- Flags are set free of charge. -/
lemma flags (f : Status → Status) : Pays n c (d.modifyStatus f) := pays.quiet rfl rfl rfl

/-- A length is noted free of charge. -/
lemma noteLength (halfwords : Nat) : Pays n c (d.noteLength halfwords) := pays.flags _

/-- A jump in itself is free of charge. -/
lemma jump (target : Word) : Pays n c (d.jump target) := pays.quiet rfl rfl rfl

/-- A report is free of charge. -/
lemma report (r : Diagnostic) : Pays n c (d.report r) := pays.quiet rfl rfl rfl

/-- The target of a delayed branch is left free of charge. -/
lemma delayTo (target : Word) : Pays n c (d.delayTo target) := pays.quiet rfl rfl rfl

/-- Holding interrupts back is free of charge. -/
lemma block (k : Int) : Pays n c (d.block k) := pays.quiet rfl rfl rfl

/-- Resuming in itself is free of charge. -/
lemma resume (address saved : Word) : Pays n c (d.resume address saved) := pays.quiet rfl rfl rfl

/-- Words are stacked free of charge. -/
lemma fillFrame (code : Nat) (values : List Word) : Pays n c (d.fillFrame code values) := by
  obtain ⟨locals, eq⟩ := fillFrame_changes values d code
  rw [eq]
  exact pays.quiet rfl rfl rfl

/-- A register is written free of charge, unless it is the prescaler. -/
lemma write {o : Operand} (spares : o.SparesPrescaler) (value : Word) :
    Pays n c (d.write o value) := by
  obtain ⟨bank, code⟩ := o
  cases bank with
  | locals => exact pays.quiet rfl rfl rfl
  | globals =>
    have scale := d.setGlobal_scale (spares rfl) value
    obtain ⟨regs, timer, entry, lockout, reports, -, eq⟩ := d.setGlobal_changes code value
    show Pays n c (d.setGlobal code value)
    rw [eq] at scale ⊢
    exact pays.quiet rfl scale rfl

/-- A pair of registers is written free of charge, unless one of them is the prescaler. -/
lemma writePair {o : Operand} (first : o.SparesPrescaler) (second : o.next.SparesPrescaler)
    (value : Double) : Pays n c (d.writePair o value) := (pays.write first _).write second _

/-- The accumulator is written free of charge. -/
lemma setAccumulator (value : Double) : Pays n c (d.setAccumulator value) := pays.quiet rfl rfl rfl

/-- A result is written with its flags free of charge. -/
lemma assign {dst : Operand} (spares : dst.SparesPrescaler) (value : Word) (f : Status → Status) :
    Pays n c (d.assign dst value f) := by
  unfold Cpu.assign
  dsimp only
  split
  · exact ((pays.write spares value).flags f).flags _
  · exact (pays.write spares value).flags f

/-- An exception that may be raised enters a handler, or costs nothing. -/
lemma raiseIf (condition : Bool) (exception : Exception) : Pays n c (d.raiseIf condition exception) := by
  cases condition with
  | false => exact pays
  | true => exact pays.enters (d.raise_enters exception) n

omit pays in
/-- An addition or subtraction costs one clock after its operands are read. -/
lemma finishAdder (pays : Pays 0 c d) {dst : Operand} (spares : dst.SparesPrescaler) (r : AdderResult)
    (signed : Bool) : Pays 1 c (d.finishAdder dst r signed) := by
  unfold Cpu.finishAdder
  split
  · exact ((pays.assign spares _ _).charge .alu).raiseIf _ _
  · exact (pays.assign spares _ _).charge .alu

end Pays

/-! ## Effects on the processor -/

/-- A field of an instruction word that does not name the program counter reads the same when that moves. -/
lemma read_setPc (c : Cpu) (target : Word) {o : Operand} (field : o.code < 16) (other : o.isPc = false) :
    (c.setPc target).read o = c.read o := by
  obtain ⟨bank, code⟩ := o
  cases bank with
  | locals => rfl
  | globals =>
    have notPc : code % 32 ≠ Global.pc := by
      have nonzero : code ≠ 0 := by simpa [Operand.isPc] using other
      dsimp only at field
      unfold Global.pc
      omega
    exact Registers.global_setPc _ _ notPc

/-- A move that does not read the tick count has no effect by reading. -/
lemma readMoved_same (c : Cpu) {src : Operand} (other : src.isTicks = false) : (c.readMoved src).2 = c := by
  obtain ⟨bank, code⟩ := src
  cases bank with
  | locals => rfl
  | globals =>
    have notTicks : code % 32 ≠ Global.tr := by simpa [Operand.isTicks] using other
    have plain : c.readGlobal code = (c.regs.global code, c) := if_neg notTicks
    unfold readMoved
    dsimp only
    rw [plain]
    split <;> rfl

/-- A division costs 36 clocks. -/
lemma divide_pays (c : Cpu) {dst : Operand} (first : dst.SparesPrescaler) (second : dst.next.SparesPrescaler)
    (src : Operand) (signed : Bool) : Pays 36 c (c.divide dst src signed) := by
  have start : Pays 0 c c := .refl
  unfold divide
  dsimp only
  split
  · exact ((start.flags _).enters (raise_enters _ .range) 0).charge .divide
  · exact ((start.writePair first second _).flags _).charge .divide

/-- A call costs one clock. -/
lemma call_pays (c : Cpu) (code : Nat) (src : Operand) (addend : Word) :
    Pays 1 c (c.call code src addend) := by
  have start : Pays 0 c c := .refl
  have stacked := (start.noteLength c.length).fillFrame code
    [(c.noteLength c.length).returnPc, (c.noteLength c.length).status.bits]
  exact (((stacked.flags _).jump _).block 2).charge .controlTransfer

/-- A trap that is not taken costs one clock. -/
lemma trap_pays (c : Cpu) (number : Nat) (condition : Option Condition) :
    Pays 1 c (c.trap number condition) := by
  have start : Pays 0 c c := .refl
  unfold trap
  split
  · exact (start.enters (c.enterTrap_enters number) 0).charge .controlTransfer
  · exact start.charge .controlTransfer

end Cpu

namespace Machine

variable {β : Type} [Bus β]

/-! ## Effects on the machine -/

/-- A load adds nothing to what has been paid before it. -/
lemma loadData_pays {n : Nat} {c : Cpu} {m : Machine β} (pays : Cpu.Pays n c m.cpu) {form : DataForm}
    {data : Operand} (spares : ∀ o ∈ form.targets data, o.SparesPrescaler) (addr : Word) :
    Cpu.Pays n c ((loadData form addr data).run m).2.cpu := by
  cases form with
  | byte | half | word | ioWord => exact pays.write (spares data List.mem_cons_self) _
  | double | ioDouble =>
    exact pays.writePair (spares data List.mem_cons_self)
      (spares data.next (List.mem_cons_of_mem _ List.mem_cons_self)) _
  | stack =>
    have write := pays.write (spares data List.mem_cons_self)
    rw [loadData_stack_run]
    split
    · exact write _
    · exact write _

/-- A load costs the clocks of its form. -/
lemma load_pays (m : Machine β) {form : DataForm} {addressing : Addressing} {data : Operand}
    (spares : (Instruction.load form addressing data).SparesPrescaler) :
    Cpu.Pays form.cost.clocks m.cpu ((load form addressing data).run m).2.cpu := by
  have start : Cpu.Pays 0 m.cpu m.cpu := .refl
  have advanced : Cpu.Pays 0 m.cpu
      (m.cpu.advanceAddress (m.cpu.transferAddress addressing) addressing) := by
    cases addressing with
    | offset base offset => exact start
    | advancing address step => exact start.write (spares address List.mem_cons_self) _
  have loaded := loadData_pays
    (m := ⟨m.cpu.advanceAddress (m.cpu.transferAddress addressing) addressing, m.bus⟩) advanced
    (fun o target => spares o (List.mem_append_right _ target)) (m.cpu.transferAddress addressing)
  exact loaded.charge form.cost

/-- A store costs the clocks of its form. -/
lemma store_pays (m : Machine β) {form : DataForm} {addressing : Addressing} {data : Operand}
    (spares : (Instruction.store form addressing data).SparesPrescaler) :
    Cpu.Pays form.cost.clocks m.cpu ((store form addressing data).run m).2.cpu := by
  obtain ⟨d, left, run⟩ := m.store_cpu form addressing data
  have charged : Cpu.Pays form.cost.clocks m.cpu (m.cpu.charge form.cost) := Cpu.Pays.refl.charge form.cost
  have stored : Cpu.Pays form.cost.clocks m.cpu d := by
    obtain rfl | ⟨-, slot, value, rfl⟩ := left
    · exact charged
    · exact charged.quiet rfl rfl rfl
  have raised := stored.raiseIf (form.loses (m.cpu.stored data).1) .range
  rw [run]
  cases addressing with
  | offset base offset => exact raised
  | advancing address step => exact raised.write (spares address List.mem_cons_self) _

/-- Opening a frame costs one clock, however many registers are spilled. -/
lemma frame_pays (m : Machine β) (back length : BitVec 4) :
    Cpu.Pays 1 m.cpu ((frame back length).run m).2.cpu := by
  have reframed : Cpu.Pays 0 m.cpu (m.cpu.reframe back length) := Cpu.Pays.refl.flags _
  obtain ⟨c, overflows, eq, run⟩ := m.frame_spills back length
  rw [← eq] at reframed
  have spilled := times_keeps (P := fun d => Cpu.Pays 0 m.cpu d.cpu) (x := spill)
    (fun pays => pays.quiet rfl rfl rfl) c.spillCount (m := ⟨c, m.bus⟩) reframed
  rw [run]
  exact (spilled.raiseIf overflows .frame).charge .controlTransfer

/-- A return costs one clock, however many registers are refilled. -/
lemma ret_pays (m : Machine β) (src : Operand) : Cpu.Pays 1 m.cpu ((ret src).run m).2.cpu := by
  have resumed : Cpu.Pays 0 m.cpu (m.cpu.resume (m.cpu.read src) (m.cpu.read src.next)) :=
    Cpu.Pays.refl.resume _ _
  obtain ⟨c, eq, run⟩ := m.ret_refills src
  rw [← eq] at resumed
  have refilled := times_keeps (P := fun d => Cpu.Pays 0 m.cpu d.cpu) (x := refill)
    (fun pays => pays.quiet rfl rfl rfl) c.refillCount (m := ⟨c, m.bus⟩) resumed
  rw [run]
  exact (refilled.raiseIf _ .privilege).charge .controlTransfer

/-- Every instruction takes the clocks of the class that it is charged by, and no others. -/
theorem execute_pays (m : Machine β) {i : Instruction} (spares : i.SparesPrescaler)
    (ticks : i.readsTicks = false) :
    Cpu.Pays (i.charged m.cpu).clocks m.cpu ((execute i).run m).2.cpu := by
  have start : Cpu.Pays 0 m.cpu m.cpu := .refl
  cases i with
  | check => exact (start.raiseIf _ .range).charge .alu
  | moveDouble dst =>
    have first := spares dst List.mem_cons_self
    have second := spares dst.next (List.mem_cons_of_mem _ List.mem_cons_self)
    exact ((start.writePair first second _).flags _).charge .doubleAlu
  | ret src => exact m.ret_pays src
  | divide dst src signed =>
    exact m.cpu.divide_pays (spares dst List.mem_cons_self)
      (spares dst.next (List.mem_cons_of_mem _ List.mem_cons_self)) src signed
  | indexMove dst => exact ((start.write (spares dst List.mem_cons_self) _).raiseIf _ .range).charge .alu
  | sum dst _ _ signed | add dst _ signed | sub dst _ signed | neg dst _ signed
  | round dst signed => exact start.finishAdder (spares dst List.mem_cons_self) _ signed
  | addCarry dst | subCarry dst | logical op dst | complement dst | moveImmediate dst =>
    exact (start.assign (spares dst List.mem_cons_self) _ _).charge .alu
  | compare | testBits | testZeroByte => exact (start.flags _).charge .alu
  | move dst src =>
    have moved : Cpu.Pays 0 m.cpu (m.cpu.readMoved src).2 := by
      rw [m.cpu.readMoved_same ticks]
      exact start
    exact (moved.assign (spares dst List.mem_cons_self) _ _).charge .alu
  | privileged => exact (start.enters (m.cpu.raise_enters .privilege) 0).charge .alu
  | mask dst | shift kind dst | rotate dst =>
    exact ((start.write (spares dst List.mem_cons_self) _).flags _).charge .alu
  | shiftDouble kind dst =>
    have first := spares dst List.mem_cons_self
    have second := spares dst.next (List.mem_cons_of_mem _ List.mem_cons_self)
    exact ((start.writePair first second _).flags _).charge .alu
  | leadingZeros dst | set dst => exact (start.write (spares dst List.mem_cons_self) _).charge .alu
  | load form addressing data => exact m.load_pays spares
  | store form addressing data => exact m.store_pays spares
  | reservedTransfer address =>
    exact ((start.write (spares address List.mem_cons_self) _).report _).charge .memoryWord
  | multiply kind dst src =>
    have first := spares dst
    cases kind with
    | unsignedDouble | signedDouble =>
      have second := spares dst.next (List.mem_cons_of_mem _ List.mem_cons_self)
      exact ((start.writePair (first List.mem_cons_self) second _).flags _).charge _
    | single => exact ((start.write (first List.mem_cons_self) _).flags _).charge _
  | emulate => exact start.enters (m.cpu.enterEmulation_enters _ _ _) _
  | accumulate => exact (start.setAccumulator _).charge .extend
  | delayedBranch => exact ((start.delayTo _).block 2).charge .delayedBranchTaken
  | branch => exact ((start.jump _).flags _).charge .branchTaken
  | fallThrough => exact start.charge .branchNotTaken
  | frame back length => exact m.frame_pays back length
  | call code src addend => exact m.cpu.call_pays code src addend
  | trap number condition => exact m.cpu.trap_pays number condition
  | undefined report cost => exact (start.report report).charge cost
  | reserved report => exact (start.report report).charge .alu

/-! ## The instruction cycle -/

/-- A fetch takes no time and moves the program counter alone. -/
lemma fetchNext_keeps {m c : Machine β} {i : Instruction} (fetched : fetchNext.run m = (.ok i, c)) :
    c.cpu.entries = m.cpu.entries ∧ c.cpu.timer = m.cpu.timer ∧ c.cpu.cycles = m.cpu.cycles ∧
      ∀ o : Operand, o.code < 16 → o.isPc = false → c.cpu.read o = m.cpu.read o := by
  have passed (cursor : Cursor) {o : Operand} (field : o.code < 16) (other : o.isPc = false) :
      (m.cpu.begin.continueAt cursor).read o = m.cpu.read o :=
    (Cpu.read_setPc _ _ field other).trans (Cpu.read_setPc _ _ field other)
  obtain ⟨cursor, bus, rfl⟩ := m.fetchNext_ok fetched
  dsimp only
  split
  · rw [Cpu.redirect_eq]
    refine ⟨rfl, rfl, rfl, fun o field other => ?_⟩
    cases (m.cpu.begin.continueAt cursor).delay.target with
    | none => exact passed cursor field other
    | some target => exact (Cpu.read_setPc _ target field other).trans (passed cursor field other)
  · exact ⟨rfl, rfl, rfl, fun o => passed cursor⟩

/-- The class in whose description the instruction that is to be executed next is named. -/
def documentedClass (m : Machine β) : CostClass :=
  let fetched := (Bus.fetch m.cpu.regs.pc).run m.bus
  let dst := (Encoding.ofWord fetched.1).dstOperand fetched.1
  let src := (Encoding.ofWord fetched.1).srcOperand fetched.1
  m.operation.documented m.cpu.status dst (m.cpu.read dst) (m.cpu.read src)
    (Decode.displacementAt (alignHalf (m.cpu.regs.pc + 2)) fetched.2)

/-- What is fetched is charged by the documented class, unless its operation is one of those that are undercharged.
-/
lemma fetchNext_charged {m c : Machine β} {i : Instruction} (fetched : fetchNext.run m = (.ok i, c))
    (general : ∀ word cost, i ≠ .undefined (.multiplyOperands word) cost) :
    i.charged c.cpu = if m.operation.undercharged then .alu else m.documentedClass := by
  obtain ⟨-, -, -, same⟩ := fetchNext_keeps fetched
  obtain ⟨found, cursor, bus, decoded, fetch⟩ := m.fetchNext_decodes
  have start : m.cpu.begin.regs.pc = alignHalf (m.cpu.regs.pc + 2) := Registers.pc_setPc _ _
  have charges := Decode.decode_charges same m.cpu.regs.pc ((Bus.fetch m.cpu.regs.pc).run m.bus).1
    m.cpu.status (alignHalf (m.cpu.regs.pc + 2)) ((Bus.fetch m.cpu.regs.pc).run m.bus).2
  rw [start] at decoded
  rw [decoded] at charges
  cases found with
  | none => cases fetched.symm.trans fetch
  | some j =>
    cases fetched.symm.trans (fetch.trans (redirect_run j _))
    exact charges i rfl general

/-- What comes after an instruction takes no time unless a handler is entered. -/
lemma complete_pays {n : Nat} {c : Cpu} {m : Machine β} (pays : Cpu.Pays n c m.cpu) (wasHigh : Bool) :
    Cpu.Pays n c ((complete wasHigh).run m).2.cpu := by
  have retire {d : Cpu} (pays : Cpu.Pays n c d) : Cpu.Pays n c d.retire := pays.quiet rfl rfl rfl
  have finished : Cpu.Pays n c (m.cpu.finish wasHigh) := by
    obtain ⟨d, eq, finished⟩ := m.cpu.finish_cases wasHigh
    have noted : Cpu.Pays n c d := by
      rw [eq]
      exact (pays.flags _).noteLength _
    obtain run | ⟨-, -, run⟩ := finished
    · rw [run]
      exact retire noted
    · rw [run]
      exact retire (noted.enters (d.raise_enters .trace) n)
  obtain run | ⟨source, -, run⟩ := complete_cpu wasHigh m
  · rw [run]
    exact finished
  · obtain ⟨timer, enters⟩ := (m.cpu.finish wasHigh).takeInterrupt_enters source
    rw [run]
    exact .ofEnters (d := { m.cpu.finish wasHigh with timer := timer }) finished.grows enters n

/-- An instruction that enters no handler, does not read the tick count and does not write the prescaler takes
exactly the clocks of the class in whose description it is named, at the clock scale in force, if and only if it is
neither a shift of a register pair nor a count of leading zeros; these take one clock in place of two. Operands
that are undefined make no difference, except those of a product. -/
theorem cost_documented_iff {m c : Machine β} {i : Instruction} (fetched : fetchNext.run m = (.ok i, c))
    (general : ∀ word cost, i ≠ .undefined (.multiplyOperands word) cost) (ticks : i.readsTicks = false)
    (spares : i.SparesPrescaler) (quiet : (executeOne.run m).2.cpu.entries = m.cpu.entries) :
    let scale := m.cpu.timer.scale.toNat
    let after := (executeOne.run m).2.cpu
    (after.cycles = m.cpu.cycles + m.documentedClass.clocks <<< scale ↔ m.operation.undercharged = false) ∧
    (m.operation.undercharged = true →
      m.documentedClass = .doubleAlu ∧ after.cycles = m.cpu.cycles + CostClass.alu.clocks <<< scale) := by
  intro scale after
  obtain ⟨entries, timer, cycles, -⟩ := fetchNext_keeps fetched
  have charged := fetchNext_charged fetched general
  obtain ⟨fault, d, fetched', -⟩ | ⟨j, d, fetched', completed⟩ := m.executeOne_cases
  · cases fetched.symm.trans fetched'
  cases fetched.symm.trans fetched'
  have pays := complete_pays (c.execute_pays spares ticks) m.cpu.status.h
  have ended : after = ((complete m.cpu.status.h).run ((execute i).run c).2).2.cpu := by
    show (executeOne.run m).2.cpu = _
    rw [completed]
  rw [← ended, charged] at pays
  -- No entry has been noted, so the clocks of the instruction are all that were spent.
  have spent : after.cycles = m.cpu.cycles +
      (if m.operation.undercharged then CostClass.alu else m.documentedClass).clocks <<< scale := by
    obtain more | ⟨-, -, spent⟩ := pays
    · rw [quiet, entries] at more
      exact absurd more (Nat.lt_irrefl _)
    · rw [spent, cycles, timer]
  cases undercharged : m.operation.undercharged with
  | false =>
    rw [undercharged, if_neg Bool.false_ne_true] at spent
    exact ⟨⟨fun _ => rfl, fun _ => spent⟩, fun isTrue => absurd isTrue Bool.false_ne_true⟩
  | true =>
    have double : m.documentedClass = .doubleAlu := Operation.documented_of_undercharged undercharged ..
    rw [undercharged, if_pos rfl] at spent
    refine ⟨⟨fun equal => ?_, fun isFalse => nomatch isFalse⟩, fun _ => ⟨double, spent⟩⟩
    -- Twice the clocks are not as many, however long a clock is.
    have positive := Nat.two_pow_pos scale
    rw [double, spent, Nat.shiftLeft_eq, Nat.shiftLeft_eq] at equal
    simp only [CostClass.clocks] at equal
    omega

/-- A machine that is to multiply local register 4, which holds 32768, by register 6, at a clock scale of two. -/
def wideProduct : Machine (DeviceBus FlatMemory) :=
  (powerOn Variant.e132xt.config (({} : FlatMemory).loadHalves 0x1000 [0xbf46])).session
    [.host .reset, .host (.setGlobal Global.pc 0x1000), .host (.setLocal 4 0x8000), .host (.setLocal 6 1),
      .host (.setGlobal Global.tpr 0x08000000)]

/-- The factor is too wide for the short product, so the product takes five clocks of four cycles. -/
theorem wideProduct_costs :
    (executeOne.run wideProduct).2.cpu.cycles = wideProduct.cpu.cycles + 20 := by
  have decoded : (fetchNext.run wideProduct).1 = .ok (.multiply .single ⟨.locals, 4⟩ ⟨.locals, 6⟩) := by
    decide +kernel
  have quiet : (executeOne.run wideProduct).2.cpu.entries = wideProduct.cpu.entries := by decide +kernel
  have long : wideProduct.documentedClass = .mulLong := by decide +kernel
  have named : wideProduct.operation.undercharged = false := by decide +kernel
  have scale : wideProduct.cpu.timer.scale.toNat = 2 := by decide +kernel
  rcases fetched : fetchNext.run wideProduct with ⟨found, c⟩
  rw [fetched] at decoded
  cases (decoded : found = _)
  obtain ⟨costs, -⟩ := cost_documented_iff fetched (fun _ _ same => nomatch same) rfl (by decide) quiet
  rw [long, scale] at costs
  exact costs.mpr named

/-- A machine that is to shift the pair of local registers 4 and 5 right by one. -/
def shiftedPair : Machine (DeviceBus FlatMemory) :=
  (powerOn Variant.e132t.config (({} : FlatMemory).loadHalves 0x1000 [0x8041])).session
    [.host .reset, .host (.setGlobal Global.pc 0x1000), .host (.setLocal 4 2)]

/-- The shift enters no handler, reads no tick count, writes no prescaler, and takes one clock and not two. -/
theorem shiftedPair_undercharged :
    let i := Instruction.shiftDouble .logical ⟨.locals, 4⟩ (.literal 1)
    let after := (executeOne.run shiftedPair).2.cpu
    (fetchNext.run shiftedPair).1 = .ok i ∧ i.readsTicks = false ∧ i.SparesPrescaler ∧
      after.entries = shiftedPair.cpu.entries ∧ shiftedPair.cpu.timer.scale = 0 ∧
      shiftedPair.documentedClass = .doubleAlu ∧
      after.cycles = shiftedPair.cpu.cycles + 1 ∧
      after.cycles ≠
        shiftedPair.cpu.cycles + CostClass.doubleAlu.clocks <<< shiftedPair.cpu.timer.scale.toNat := by
  decide +kernel

end Machine

end E1Machine
