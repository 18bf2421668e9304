import E1Machine.Decoding
import Mathlib.Tactic.Common

/-!
# Forms of instructions

What an instruction word can decode to, said once: `Instruction.Form` lists the instructions with the operands
they can have, and `Decode.decode_fits` ties each to its operation. What holds of all instructions that are
ever executed is proved by cases on their forms, without a look at the decoder.
-/

namespace E1Machine

/-! ## Control -/

/-- How an instruction passes control on. -/
inductive Control where
  /-- To the next instruction, unless it writes the program counter or raises an exception. -/
  | onward
  /-- To the target of a delayed branch, after the next instruction. -/
  | delayedBranch
  /-- To the target of a branch. -/
  | branch
  /-- To the routine that is called. -/
  | call
  /-- To the handler of a trap, if its condition holds. -/
  | trap
  /-- To the emulation of the instruction. -/
  | emulation
  /-- To the next instruction, and a delayed branch stays pending. -/
  | reserved
  deriving DecidableEq, Repr

/-- How an instruction passes control on. -/
def Instruction.control : Instruction → Control
  | delayedBranch _ => .delayedBranch
  | branch _ => .branch
  | call _ _ _ => .call
  | trap _ _ => .trap
  | emulate _ _ _ => .emulation
  | reserved _ => .reserved
  | _ => .onward

/-- How an operation passes control on: a branch does so if it is taken. -/
def Operation.control (status : Status) : Operation → Control
  | delayedBranch condition => if condition.holds status then .delayedBranch else .onward
  | dbr => .delayedBranch
  | branch condition => if condition.holds status then .branch else .onward
  | br => .branch
  | call => .call
  | trap => .trap
  | software => .emulation
  | reserved => .reserved
  | _ => .onward

/-! ## Forms -/

namespace Instruction

/-- The forms of the instructions that are decoded from operation `o` in state `s`, with the registers `dst` and
`src` in the two fields. -/
inductive Form (o : Operation) (s : Status) (dst src : Operand) : Instruction → Prop where
  | check : Form o s dst src (.check dst src)
  | moveDouble : Form o s dst src (.moveDouble dst src)
  | ret : Form o s dst src (.ret src)
  | divide (signed : Bool) : Form o s dst src (.divide dst src signed)
  | indexMove (scale : Nat) (small : scale < 4) (limit : Option Word) :
    Form o s dst src (.indexMove dst src scale limit)
  | mask (mask : Word) : Form o s dst src (.mask dst src mask)
  | sum (addend : Word) (signed : Bool) : Form o s dst src (.sum dst src addend signed)
  | add (addend : Source) (signed : Bool) : Form o s dst src (.add dst addend signed)
  | sub (signed : Bool) : Form o s dst src (.sub dst src signed)
  | neg (signed : Bool) : Form o s dst src (.neg dst src signed)
  | addCarry : Form o s dst src (.addCarry dst src)
  | subCarry : Form o s dst src (.subCarry dst src)
  | round (signed : Bool) : Form o s dst src (.round dst signed)
  | compare (other : Source) : Form o s dst src (.compare dst other)
  | testBits (other : Source) : Form o s dst src (.testBits dst other)
  | testZeroByte : Form o s dst src (.testZeroByte dst)
  | logical (op : LogicalOp) (other : Source) : Form o s dst src (.logical op dst other)
  | complement : Form o s dst src (.complement dst src)
  | move (isMove : o = .mov) (allowed : isPrivileged s dst = false) :
    Form o s dst src (.move (dst.raised s.h) (src.raised s.h))
  | moveImmediate (allowed : isPrivileged s dst = false) (value : Word) :
    Form o s dst src (.moveImmediate (dst.raised s.h) value)
  | privileged : Form o s dst src .privileged
  | shift (kind : ShiftKind) (count : Source) : Form o s dst src (.shift kind dst count)
  | shiftDouble (kind : ShiftKind) (count : Source) : Form o s dst src (.shiftDouble kind dst count)
  | leadingZeros : Form o s dst src (.leadingZeros dst src)
  | rotate : Form o s dst src (.rotate dst src)
  | load (form : DataForm) (offset : Word) : Form o s dst src (.load form (.offset dst offset) src)
  | loadNext (form : DataForm) (step : Word) : Form o s dst src (.load form (.advancing dst step) src)
  | store (form : DataForm) (offset : Word) : Form o s dst src (.store form (.offset dst offset) src)
  | storeNext (form : DataForm) (step : Word)
    (general : form = .word ∨ form = .double ∨ dst.isPc = false ∧ dst.isSr = false) :
    Form o s dst src (.store form (.advancing dst step) src)
  | reservedTransfer (step : Word) (report : Diagnostic) :
    Form o s dst src (.reservedTransfer dst step report)
  | multiply (kind : ProductKind) : Form o s dst src (.multiply kind dst src)
  | set (value : SetValue) : Form o s dst src (.set dst value)
  | emulate (byte : Byte) : Form o s dst src (.emulate byte dst.code src.code)
  | accumulate (function : Accumulation) : Form o s dst src (.accumulate function dst src)
  | delayedBranch (offset : Word) (even : offset.toNat % 2 = 0) :
    Form o s dst src (.delayedBranch offset)
  | branch (offset : Word) (even : offset.toNat % 2 = 0) : Form o s dst src (.branch offset)
  | fallThrough : Form o s dst src .fallThrough
  | frame (back length : BitVec 4) : Form o s dst src (.frame back length)
  | call (addend : Word) : Form o s dst src (.call (if dst.code = 0 then 16 else dst.code) src addend)
  | trap (number : Nat) (condition : Option Condition) : Form o s dst src (.trap number condition)
  | undefined (report : Diagnostic) (cost : CostClass) : Form o s dst src (.undefined report cost)
  | reserved (report : Diagnostic) : Form o s dst src (.reserved report)

/-- An instruction has one of the forms of its operation and passes control on as the operation does. -/
structure Fits (o : Operation) (s : Status) (dst src : Operand) (i : Instruction) : Prop where
  form : Form o s dst src i
  control : i.control = o.control s

section

variable {o : Operation} {s : Status} {dst src : Operand}

/-- A branch goes by an even offset. -/
lemma Form.even_of_branch {offset : Word} (form : Form o s dst src (.branch offset)) :
    offset.toNat % 2 = 0 := by
  cases form with
  | branch _ even => exact even

/-- A delayed branch goes by an even offset. -/
lemma Form.even_of_delayedBranch {offset : Word} (form : Form o s dst src (.delayedBranch offset)) :
    offset.toNat % 2 = 0 := by
  cases form with
  | delayedBranch _ even => exact even

/-! ## Instructions whose operands are restricted -/

variable (onward : o.control s = .onward)
include onward

/-- A division is one with general operands, or undefined. -/
lemma ofDivision_fits (word : Half) (signed : Bool) : Fits o s dst src (ofDivision word dst src signed) := by
  unfold ofDivision
  split
  · exact ⟨.undefined _ _, onward.symm⟩
  · exact ⟨.divide signed, onward.symm⟩

/-- A product is one of general registers, or undefined. -/
lemma ofProduct_fits (word : Half) (kind : ProductKind) :
    Fits o s dst src (ofProduct word kind dst src) := by
  unfold ofProduct
  split
  · exact ⟨.undefined _ _, onward.symm⟩
  · exact ⟨.multiply kind, onward.symm⟩

/-- A shift of a pair by a register is one, or undefined. -/
lemma ofDoubleShift_fits (word : Half) (kind : ShiftKind) :
    Fits o s dst src (ofDoubleShift word kind dst src) := by
  unfold ofDoubleShift
  split
  · exact ⟨.undefined _ _, onward.symm⟩
  · exact ⟨.shiftDouble kind _, onward.symm⟩

/-- An index move has a scale below four, or is undefined. -/
lemma ofIndexMove_fits (word : Half) (index : IndexLimit) :
    Fits o s dst src (ofIndexMove word dst src index) := by
  unfold ofIndexMove
  split
  · exact ⟨.undefined _ _, onward.symm⟩
  · exact ⟨.indexMove _ (Nat.mod_lt _ (by decide)) _, onward.symm⟩

/-- A `SET` instruction stores a value, or is undefined. -/
lemma ofSet_fits (word : Half) : Fits o s dst src (ofSet word dst) := by
  unfold ofSet
  split
  · exact ⟨.undefined _ _, onward.symm⟩
  · split
    · exact ⟨.set _, onward.symm⟩
    · exact ⟨.undefined _ _, onward.symm⟩

/-- A signal-processing instruction has a function, or is undefined. -/
lemma ofFunction_fits (function : Half) : Fits o s dst src (ofFunction function dst src) := by
  unfold ofFunction
  split
  · exact ⟨.accumulate _, onward.symm⟩
  · exact ⟨.undefined _ _, onward.symm⟩

/-- A load that advances its address is one with a general address, or reserved, or undefined. -/
lemma ofLoadNext_fits (report : Diagnostic) (word : Half) (d : Displacement) :
    Fits o s dst src (ofAdvance .load report word dst src d) := by
  unfold ofAdvance
  dsimp only
  split
  · exact ⟨.undefined _ _, onward.symm⟩
  · split
    · exact ⟨.loadNext _ _, onward.symm⟩
    · exact ⟨.reservedTransfer _ _, onward.symm⟩

/-- A store that advances its address is one with a general address, or reserved, or undefined. -/
lemma ofStoreNext_fits (report : Diagnostic) (word : Half) (d : Displacement) :
    Fits o s dst src (ofAdvance .store report word dst src d) := by
  unfold ofAdvance
  dsimp only
  split
  · exact ⟨.undefined _ _, onward.symm⟩
  · next general =>
    simp only [not_or, Bool.not_eq_true] at general
    split
    · exact ⟨.storeNext _ _ (.inr (.inr general)), onward.symm⟩
    · exact ⟨.reservedTransfer _ _, onward.symm⟩

/-- A move is one of registers that user code may name, or refused. -/
lemma ofMove_fits (isMove : o = .mov) : Fits o s dst src (ofMove s dst src) := by
  unfold ofMove
  split
  · exact ⟨.privileged, onward.symm⟩
  · next allowed => exact ⟨.move isMove (Bool.eq_false_iff.mpr allowed), onward.symm⟩

end

end Instruction

/-! ## Decoding -/

/-- A word with bit 0 clear is even. -/
lemma even_of_bit {w : Word} (clear : w.getLsbD 0 = false) : w.toNat % 2 = 0 := by
  rw [BitVec.getLsbD, Nat.testBit_zero, decide_eq_false_iff_not] at clear
  omega

/-- The offset in an instruction word is even. -/
lemma shortOffset_even (word : Half) : (shortOffset word).toNat % 2 = 0 := by
  apply even_of_bit
  unfold shortOffset
  rw [BitVec.getLsbD_signExtend, BitVec.getLsbD_append]
  simp

/-- The offset with an extension halfword is even. -/
lemma longOffset_even (word first : Half) : (longOffset word first).toNat % 2 = 0 := by
  apply even_of_bit
  unfold longOffset
  rw [BitVec.getLsbD_signExtend, BitVec.getLsbD_append]
  simp

namespace Decode

variable {α γ β : Type}

/-- Whether all that a decoder can find has a property. -/
def Finds (P : α → Prop) (x : Decode β α) : Prop := ∀ cursor b, P ((x.run cursor).run b).1.1

/-- What is found without fetching has its property. -/
lemma Finds.pure {P : α → Prop} {a : α} (holds : P a) : Finds P (Pure.pure a : Decode β α) :=
  fun _ _ => holds

/-- A decoder that goes on with whatever was found finds what its second part finds. -/
lemma Finds.bind {P : γ → Prop} (x : Decode β α) {f : α → Decode β γ}
    (found : ∀ a, Finds P (f a)) : Finds P (x >>= f) := fun _ _ => found _ _ _

/-- A function of what is found has any property that the function gives it. -/
lemma Finds.map {P : α → Prop} {Q : γ → Prop} {x : Decode β α} (finds : Finds P x) (f : α → γ)
    (keeps : ∀ a, P a → Q (f a)) : Finds Q (x >>= fun a => Pure.pure (f a)) :=
  fun cursor b => keeps _ (finds cursor b)

/-- What is found has every weaker property. -/
lemma Finds.mono {P Q : α → Prop} {x : Decode β α} (finds : Finds P x) (implies : ∀ a, P a → Q a) :
    Finds Q x := fun cursor b => implies _ (finds cursor b)

/-- What is found of an operation: nothing if it has no meaning, else an instruction that fits. -/
def Fits (o : Operation) (s : Status) (dst src : Operand) : Option Instruction → Prop
  | none => o = .unimplemented
  | some i => i.Fits o s dst src

variable [Bus β]

/-- Whether all that a decoder can find has a property, which may draw on the halfword at its place in the
instruction stream. -/
def FindsBy (P : Half → α → Prop) (x : Decode β α) : Prop :=
  ∀ cursor b, P ((Bus.fetch cursor.pc).run b).1 ((x.run cursor).run b).1.1

/-- What is found without fetching has the property for whatever halfword. -/
lemma FindsBy.pure {P : Half → α → Prop} {a : α} (holds : ∀ first, P first a) :
    FindsBy P (Pure.pure a : Decode β α) := fun _ _ => holds _

/-- A function of what is found has any property that the function gives it. -/
lemma FindsBy.map {P : Half → α → Prop} {Q : Half → γ → Prop} {x : Decode β α} (finds : FindsBy P x) (f : α → γ)
    (keeps : ∀ first a, P first a → Q first (f a)) : FindsBy Q (x >>= fun a => Pure.pure (f a)) :=
  fun cursor b => keeps _ _ (finds cursor b)

/-- What is found has every weaker property. -/
lemma FindsBy.mono {P Q : Half → α → Prop} {x : Decode β α} (finds : FindsBy P x)
    (implies : ∀ first a, P first a → Q first a) : FindsBy Q x := fun cursor b => implies _ _ (finds cursor b)

/-- A branch is decoded with an even offset. -/
lemma offset_even (word : Half) :
    Finds (fun d : Word => d.toNat % 2 = 0) (offset word : Decode β Word) := by
  unfold offset
  split
  · exact .bind _ fun first => .bind _ fun _ => .pure (longOffset_even word first)
  · exact .pure (shortOffset_even word)

section

variable {o : Operation} {s : Status} {dst src : Operand}

/-- A move of a literal is one that user code may make, or refused. -/
lemma ofMoveImmediate_fits (onward : o.control s = .onward) (word : Half) :
    Finds (Instruction.Fits o s dst src)
      (Instruction.ofMoveImmediate word s dst : Decode β Instruction) := by
  unfold Instruction.ofMoveImmediate
  split
  · exact .bind _ fun _ => .pure ⟨.privileged, onward.symm⟩
  · next allowed =>
    exact .bind _ fun value => .pure ⟨.moveImmediate (Bool.eq_false_iff.mpr allowed) value, onward.symm⟩

/-- A branch is taken with an even offset or falls through. -/
lemma ofBranch_fits (word : Half) (taken : Bool) {branch : Word → Instruction}
    (form : ∀ d, d.toNat % 2 = 0 → Instruction.Form o s dst src (branch d))
    (control : ∀ d, o.control s = if taken then (branch d).control else .onward) :
    Finds (Instruction.Fits o s dst src)
      (Instruction.ofBranch word taken branch : Decode β Instruction) := by
  unfold Instruction.ofBranch
  cases taken with
  | true => exact (offset_even word).map branch fun d even => ⟨form d even, (control d).symm⟩
  | false => exact .bind _ fun _ => .pure ⟨.fallThrough, (control 0).symm⟩

end

open Instruction in
/-- Whatever is decoded fits its operation. -/
lemma decode_fits (address : Word) (word : Half) (status : Status) :
    Finds (Decode.Fits (Encoding.ofWord word).operation status ((Encoding.ofWord word).dstOperand word)
        ((Encoding.ofWord word).srcOperand word))
      (decode address word status : Decode β (Option Instruction)) := by
  unfold decode
  dsimp only
  generalize (Encoding.ofWord word).dstOperand word = dst
  generalize (Encoding.ofWord word).srcOperand word = src
  -- One case for each operation: what decoding makes of it is named by a constructor of the form.
  cases (Encoding.ofWord word).operation with
  | chk => exact .pure ⟨.check, rfl⟩
  | movd =>
    refine .pure ?_
    split
    · exact ⟨.moveDouble, rfl⟩
    · split
      · exact ⟨.undefined _ _, rfl⟩
      · exact ⟨.ret, rfl⟩
  | divu | divs => exact .pure (ofDivision_fits rfl word _)
  | xm => exact .bind _ fun index => .pure (ofIndexMove_fits rfl word index)
  | mask => exact .bind _ fun mask => .pure ⟨.mask mask, rfl⟩
  | sum | sums => exact .bind _ fun addend => .pure ⟨.sum addend _, rfl⟩
  | cmp => exact .pure ⟨.compare _, rfl⟩
  | cmpi => exact .bind _ fun _ => .pure ⟨.compare _, rfl⟩
  | mov => exact .pure (ofMove_fits rfl rfl)
  | movi => exact (ofMoveImmediate_fits rfl word).map some fun _ => id
  | add | adds => exact .pure ⟨.add _ _, rfl⟩
  | addi | addsi =>
    dsimp only
    split
    · exact .pure ⟨.round _, rfl⟩
    · exact .bind _ fun _ => .pure ⟨.add _ _, rfl⟩
  | cmpb => exact .pure ⟨.testBits _, rfl⟩
  | cmpbi =>
    dsimp only
    split
    · exact .pure ⟨.testZeroByte, rfl⟩
    · exact .bind _ fun _ => .pure ⟨.testBits _, rfl⟩
  | andn | or | xor | and => exact .pure ⟨.logical _ _, rfl⟩
  | andni =>
    dsimp only
    split
    · exact .pure ⟨.logical _ _, rfl⟩
    · exact .bind _ fun _ => .pure ⟨.logical _ _, rfl⟩
  | ori | xori => exact .bind _ fun _ => .pure ⟨.logical _ _, rfl⟩
  | subc => exact .pure ⟨.subCarry, rfl⟩
  | not => exact .pure ⟨.complement, rfl⟩
  | sub | subs => exact .pure ⟨.sub _, rfl⟩
  | addc => exact .pure ⟨.addCarry, rfl⟩
  | neg | negs => exact .pure ⟨.neg _, rfl⟩
  | shrdi | sardi | shldi => exact .pure ⟨.shiftDouble _ _, rfl⟩
  | shrd | sard | shld => exact .pure (ofDoubleShift_fits rfl word _)
  | shr | sar | shl | shri | sari | shli => exact .pure ⟨.shift _ _, rfl⟩
  | testlz => exact .pure ⟨.leadingZeros, rfl⟩
  | rol => exact .pure ⟨.rotate, rfl⟩
  | loadDisplacement => exact .bind _ fun d => .pure ⟨.load _ _, rfl⟩
  | loadNext => exact .bind _ fun d => .pure (ofLoadNext_fits rfl _ word d)
  | storeDisplacement => exact .bind _ fun d => .pure ⟨.store _ _, rfl⟩
  | storeNext => exact .bind _ fun d => .pure (ofStoreNext_fits rfl _ word d)
  | ldwR | lddR => exact .pure ⟨.load _ _, rfl⟩
  | ldwP | lddP => exact .pure ⟨.loadNext _ _, rfl⟩
  | stwR | stdR => exact .pure ⟨.store _ _, rfl⟩
  | stwP => exact .pure ⟨.storeNext _ _ (.inl rfl), rfl⟩
  | stdP => exact .pure ⟨.storeNext _ _ (.inr (.inl rfl)), rfl⟩
  | mulu | muls | mul => exact .pure (ofProduct_fits rfl word _)
  | set => exact .pure (ofSet_fits rfl word)
  | software => exact .pure ⟨.emulate _, rfl⟩
  | extend => exact .bind _ fun function => .pure (ofFunction_fits rfl function)
  | unimplemented => exact .pure rfl
  | delayedBranch | dbr =>
    exact (ofBranch_fits word _ .delayedBranch fun _ => rfl).map some fun _ => id
  | branch | br => exact (ofBranch_fits word _ .branch fun _ => rfl).map some fun _ => id
  | frame => exact .pure ⟨.frame _ _, rfl⟩
  | call => exact .bind _ fun addend => .pure ⟨.call addend, rfl⟩
  | trap => exact .pure ⟨.trap _ _, rfl⟩
  | reserved => exact .pure ⟨.reserved _, rfl⟩

/-- The register fields of an instruction word have four bits. -/
lemma fields_lt (word : Half) : ((Encoding.ofWord word).dstOperand word).code < 16 ∧
    ((Encoding.ofWord word).srcOperand word).code < 16 :=
  ⟨(word.extractLsb' 4 4).isLt, (word.extractLsb' 0 4).isLt⟩

/-- What holds of all instructions that fit holds of whatever is decoded. -/
lemma decode_finds {P : Instruction → Prop} (address : Word) (word : Half) (status : Status)
    (holds : ∀ i, Instruction.Form (Encoding.ofWord word).operation status
      ((Encoding.ofWord word).dstOperand word) ((Encoding.ofWord word).srcOperand word) i → P i) :
    Finds (fun found => ∀ i, found = some i → P i)
      (Instruction.decode address word status : Decode β (Option Instruction)) := by
  refine (decode_fits address word status).mono ?_
  rintro _ fits i rfl
  exact holds i fits.form

end Decode

end E1Machine
