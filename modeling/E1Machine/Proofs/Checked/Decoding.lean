import E1Machine.Proofs.Checked.Execution
import E1Machine.Proofs.Fetching

/-!
# Checked decoding

Decoding looks an instruction word up in a table of 256 entries and calculates with register codes, with indices
into the table of immediates and with lengths. None of that fails, and what is found has operands that the
effects can calculate with (`Decode.decode_sized`).
-/

namespace E1Machine

namespace Checked

/-! ## Decoders -/

/-- Decoding that can fail. -/
abbrev Decoder (β : Type) := StateT Cursor (StateT β Option)

section

variable {α γ β : Type}

namespace Decoder

/-- A decoder that calculates with nothing that could fail. -/
def surely (x : Decode β α) : Decoder β α := fun cursor b => some ((x.run cursor).run b)

/-- Makes a checked computation. -/
def compute (x : Option α) : Decoder β α := fun cursor b => do
  let a ← x
  return ((a, cursor), b)

end Decoder

/-- A decoder that always succeeds, as another does. -/
def Decodes (x : Decoder β α) (y : Decode β α) : Prop :=
  ∀ cursor b, (x.run cursor).run b = some ((y.run cursor).run b)

/-- A decoder that calculates with nothing that could fail always succeeds. -/
lemma Decodes.surely (x : Decode β α) : Decodes (Decoder.surely x) x := fun _ _ => rfl

/-- A value is decoded without fail. -/
lemma Decodes.pure (a : α) : Decodes (Pure.pure a : Decoder β α) (Pure.pure a) := fun _ _ => rfl

/-- A decoder that succeeds may go on with another, whatever it has found. -/
lemma Decodes.bind {x : Decoder β α} {y : Decode β α} {f : α → Decoder β γ} {g : α → Decode β γ}
    (first : Decodes x y) (rest : ∀ a, Decodes (f a) (g a)) : Decodes (x >>= f) (y >>= g) :=
  fun cursor b => proceeds (first cursor b) (rest _ _ _)

/-- A computation without effect precedes. -/
lemma Decodes.after {x : Option α} {a : α} {f : α → Decoder β γ} {y : Decode β γ} (first : x = some a)
    (rest : Decodes (f a) y) : Decodes (Decoder.compute x >>= f) y := by
  rw [first]
  exact rest

/-- What a decoder has found may be made into something else. -/
lemma Decodes.map {x : Decoder β α} {y : Decode β α} (decodes : Decodes x y) (f : α → γ) :
    Decodes (x >>= fun a => Pure.pure (f a)) (y >>= fun a => Pure.pure (f a)) :=
  .bind decodes fun _ => .pure _

end

/-! ## Tables and codes -/

/-- The encodings by the high byte of an instruction word. -/
def opcodeTable : Vector Encoding 256 := Vector.ofFn fun byte => Encoding.ofByte (BitVec.ofFin byte)

/-- Looks an instruction word up. -/
def lookup (word : Half) : Option Encoding := opcodeTable[(word.extractLsb' 8 8).toNat]?

/-- The immediate with a code of four bits. -/
def immediateValue (code : Nat) : Option Word := do
  let index ← unsigned 64 (16 + code)
  immediateValues[index]?

/-- The operand of a move, in the high global registers under the high flag. -/
def raised (o : Operand) (h : Bool) : Option Operand :=
  if h && o.bank == .globals then do
    let code ← unsigned 8 (o.code + 16)
    return ⟨.globals, code⟩
  else some o

/-- The value with a code of five bits that a register is set to, if the code is not reserved. -/
def setValue (n : Nat) : Option (Option SetValue) :=
  let met : Word := if n < 16 then 1 else BitVec.allOnes 32
  match n with
  | 0 => some (some .frameAddress)
  | 2 | 18 => some (some (.constant met))
  | 3 => some (some (.constant 0))
  | _ => do
    let code ← (if n < 16 then some n else difference n 16)
    return (Condition.ofSetCode code).map fun condition => .test condition met

/-- The table has an encoding for every instruction word. -/
lemma lookup_eq (word : Half) : lookup word = some (Encoding.ofWord word) := by
  have inside := (word.extractLsb' 8 8).isLt
  unfold lookup opcodeTable
  rw [Vector.getElem?_eq_getElem inside, Vector.getElem_ofFn]
  rfl

/-- The table of immediates has a value for every code of four bits. -/
lemma immediateValue_eq {code : Nat} (small : code < 16) :
    immediateValue code = some (immediateValues.toArray.getD (16 + code) 0) := by
  refine proceeds (unsigned_eq (by omega)) ?_
  have inside : 16 + code < 32 := by omega
  rw [Vector.getElem?_eq_getElem inside, Array.getD_eq_getD_getElem?,
    Array.getElem?_eq_getElem (by simpa using inside)]
  rfl

/-- The code of a raised operand always fits. -/
lemma raised_eq {o : Operand} (small : o.code < 16) (h : Bool) : raised o h = some (o.raised h) := by
  unfold raised Operand.raised
  split
  · exact proceeds (unsigned_eq (by omega)) rfl
  · rfl

/-- Every code of five bits is found to have its value, or to be reserved. -/
lemma setValue_eq {n : Nat} (small : n < 32) : setValue n = some (SetValue.ofCode n) := by
  have code : (if n < 16 then some n else difference n 16) = some (n % 16) := by
    split
    · rw [Nat.mod_eq_of_lt (by assumption)]
    · rw [difference_eq (by omega)]
      congr 1
      omega
  fun_cases SetValue.ofCode n with
  | case5 =>
    simp only [setValue, *]
    rfl
  | _ => rfl

/-! ## Instructions -/

/-- A division, if its operands are defined. -/
def ofDivision (word : Half) (dst src : Operand) (signed : Bool) : Option Instruction := do
  let second ← next dst
  return if src = dst ∨ src = second ∨ src.isPc ∨ src.isSr then .undefined (.divideOperands word) .divide
    else .divide dst src signed

/-- A shift of a pair, if its count is not in the pair. -/
def ofDoubleShift (word : Half) (kind : ShiftKind) (dst src : Operand) : Option Instruction := do
  let second ← next dst
  return if src = dst ∨ src = second then .undefined (.doubleShiftCount word) .alu
    else .shiftDouble kind dst (.register src)

/-- An index move: a limit is ignored by the sub-types from four on, which scale as those from zero on. -/
def ofIndexMove (word : Half) (dst src : Operand) (index : IndexLimit) : Option Instruction :=
  if src.isPc ∨ src.isSr then some (.undefined (.indexMoveOperand word) .alu)
  else if index.subType.toNat < 4 then
    some (.indexMove dst src index.subType.toNat (some index.limit))
  else do
    let scale ← difference index.subType.toNat 4
    return .indexMove dst src scale none

/-- The setting of a register, if its code is not reserved. -/
def ofSet (word : Half) (dst : Operand) : Option Instruction :=
  if dst.isPc then some (.undefined (.setIntoPc word) .alu)
  else do
    match ← setValue (nField word) with
    | some value => return .set dst value
    | none => return .undefined (.reservedSet (nField word)) .alu

/-- A move, if it is not refused. -/
def ofMove (status : Status) (dst src : Operand) : Option Instruction :=
  if Instruction.isPrivileged status dst then some .privileged
  else do
    let src ← raised src status.h
    let dst ← raised dst status.h
    return .move dst src

section

variable {dst src : Operand} (small : dst.code < 16)
include small

/-- A division is decoded without fail. -/
lemma ofDivision_eq (word : Half) (src : Operand) (signed : Bool) :
    ofDivision word dst src signed = some (Instruction.ofDivision word dst src signed) :=
  proceeds (next_eq (by omega)) rfl

/-- A shift of a pair is decoded without fail. -/
lemma ofDoubleShift_eq (word : Half) (kind : ShiftKind) (src : Operand) :
    ofDoubleShift word kind dst src = some (Instruction.ofDoubleShift word kind dst src) :=
  proceeds (next_eq (by omega)) rfl

/-- A move is decoded without fail. -/
lemma ofMove_eq (status : Status) (srcSmall : src.code < 16) :
    ofMove status dst src = some (Instruction.ofMove status dst src) := by
  unfold ofMove Instruction.ofMove
  split
  · rfl
  · exact proceeds (raised_eq srcSmall status.h) (proceeds (raised_eq small status.h) rfl)

end

/-- An index move is decoded without fail. -/
lemma ofIndexMove_eq (word : Half) (dst src : Operand) (index : IndexLimit) :
    ofIndexMove word dst src index = some (Instruction.ofIndexMove word dst src index) := by
  have below := index.subType.isLt
  unfold ofIndexMove Instruction.ofIndexMove
  split
  · rfl
  · split
    · have limited : index.subType.msb = false := by
        rw [BitVec.msb_eq_decide]
        exact decide_eq_false (by omega)
      rw [limited, Nat.mod_eq_of_lt (by omega)]
      rfl
    · have unlimited : index.subType.msb = true := by
        rw [BitVec.msb_eq_decide]
        exact decide_eq_true (by omega)
      refine proceeds (difference_eq (by omega)) ?_
      have scale : index.subType.toNat - 4 = index.subType.toNat % 4 := by omega
      rw [unlimited, scale]
      rfl

/-- The setting of a register is decoded without fail. -/
lemma ofSet_eq (word : Half) (dst : Operand) : ofSet word dst = some (Instruction.ofSet word dst) := by
  have value := setValue_eq (n := nField word) (word.extractLsb' 8 1 ++ word.extractLsb' 0 4).isLt
  unfold ofSet Instruction.ofSet
  split
  · rfl
  · refine proceeds value ?_
    cases SetValue.ofCode (nField word) <;> rfl

section

variable {β : Type} [Bus β]

/-! ## Extension halfwords -/

/-- Passes over the only `halfwords` extension halfwords of the instruction. -/
def skip (halfwords : Nat) : Decoder β Unit := do
  let bytes ← Decoder.compute (unsigned 32 (halfwords * 2))
  let length ← Decoder.compute (unsigned 8 (1 + halfwords))
  Decoder.surely (modify fun c => ⟨c.pc + BitVec.ofNat 32 bytes, length⟩)

/-- The immediate of an instruction word: short, in the table, or in extension halfwords. -/
def immediate (word : Half) : Decoder β Word :=
  if word.getLsbD 8 then
    match (word.extractLsb' 0 4).toNat with
    | 1 | 2 | 3 => Decoder.surely (Decode.codedImmediate word)
    | code => Decoder.compute (immediateValue code)
  else pure ((word.extractLsb' 0 4).setWidth 32)

/-- Passes over the extension halfwords of an immediate. -/
def skipImmediate (word : Half) : Decoder β Unit :=
  if word.getLsbD 8 then
    match (word.extractLsb' 0 4).toNat with
    | 1 => skip 2
    | 2 | 3 => skip 1
    | _ => Decoder.surely (Decode.setLength 1)
  else pure ()

/-- Passes over the extension halfword of an offset. -/
def skipOffset (word : Half) : Decoder β Unit := if word.getLsbD 7 then skip 1 else pure ()

/-- A move of an immediate, if it is not refused. -/
def ofMoveImmediate (word : Half) (status : Status) (dst : Operand) : Decoder β Instruction :=
  if Instruction.isPrivileged status dst then do
    skipImmediate word
    return .privileged
  else do
    let dst ← Decoder.compute (raised dst status.h)
    return .moveImmediate dst (← immediate word)

/-- A branch by its offset if it is taken, and past it otherwise. -/
def ofBranch (word : Half) (taken : Bool) (branch : Word → Instruction) : Decoder β Instruction := do
  if taken then
    return branch (← Decoder.surely (Decode.offset word))
  else
    skipOffset word
    return .fallThrough

omit [Bus β] in
/-- Two extension halfwords at most are passed over without fail. -/
lemma skip_decodes {halfwords : Nat} (few : halfwords ≤ 2) :
    Decodes (skip halfwords : Decoder β Unit) (Decode.skip halfwords) := by
  refine .after (unsigned_eq (by omega)) (.after (unsigned_eq (by omega)) ?_)
  rw [Nat.mul_comm halfwords 2]
  exact .surely _

/-- An immediate is decoded without fail. -/
lemma immediate_decodes (word : Half) :
    Decodes (immediate word : Decoder β Word) (Decode.immediate word) := by
  have code := (word.extractLsb' 0 4).isLt
  unfold immediate Decode.immediate
  split
  · split
    · exact .surely _
    · exact .surely _
    · exact .surely _
    · rename_i one two three
      have value := immediateValue_eq code
      unfold Decode.codedImmediate
      split
      · exact absurd ‹_› one
      · exact absurd ‹_› two
      · exact absurd ‹_› three
      · intro cursor b
        exact proceeds value rfl
  · exact .pure _

omit [Bus β] in
/-- An immediate is passed over without fail. -/
lemma skipImmediate_decodes (word : Half) :
    Decodes (skipImmediate word : Decoder β Unit) (Decode.skipImmediate word) := by
  unfold skipImmediate Decode.skipImmediate Decode.skipCodedImmediate
  split
  · match (word.extractLsb' 0 4).toNat with
    | 1 => exact skip_decodes (by decide)
    | 2 => exact skip_decodes (by decide)
    | 3 => exact skip_decodes (by decide)
    | 0 | _ + 4 => exact .surely _
  · exact .pure _

omit [Bus β] in
/-- An offset is passed over without fail. -/
lemma skipOffset_decodes (word : Half) :
    Decodes (skipOffset word : Decoder β Unit) (Decode.skipOffset word) := by
  unfold skipOffset Decode.skipOffset
  split
  · exact skip_decodes (by decide)
  · exact .pure _

/-- A move of an immediate is decoded without fail. -/
lemma ofMoveImmediate_decodes (word : Half) (status : Status) {dst : Operand} (small : dst.code < 16) :
    Decodes (ofMoveImmediate word status dst : Decoder β Instruction)
      (Instruction.ofMoveImmediate word status dst) := by
  unfold ofMoveImmediate Instruction.ofMoveImmediate
  split
  · exact .bind (skipImmediate_decodes word) fun _ => .pure _
  · exact .after (raised_eq small status.h) ((immediate_decodes word).map _)

/-- A branch is decoded without fail. -/
lemma ofBranch_decodes (word : Half) (taken : Bool) (branch : Word → Instruction) :
    Decodes (ofBranch word taken branch : Decoder β Instruction)
      (Instruction.ofBranch word taken branch) := by
  unfold ofBranch Instruction.ofBranch
  cases taken with
  | true => exact (Decodes.surely _).map branch
  | false => exact .bind (skipOffset_decodes word) fun _ => .pure _

/-! ## Instruction words -/

/-- Decodes the instruction whose word was fetched from `address`. Where this calculates with nothing that could
fail it is done as ever. -/
def decode (address : Word) (word : Half) (status : Status) : Decoder β (Option Instruction) := do
  let encoding ← Decoder.compute (lookup word)
  let dst := encoding.dstOperand word
  let src := encoding.srcOperand word
  let n := nField word
  match encoding.operation with
  | .divu => return some (← Decoder.compute (ofDivision word dst src false))
  | .divs => return some (← Decoder.compute (ofDivision word dst src true))
  | .xm =>
    let index ← Decoder.surely Decode.indexLimit
    return some (← Decoder.compute (ofIndexMove word dst src index))
  | .mov => return some (← Decoder.compute (ofMove status dst src))
  | .cmpi => return some (.compare dst (.literal (← immediate word)))
  | .movi => return some (← ofMoveImmediate word status dst)
  | .addi =>
    if n = 0 then return some (.round dst false)
    else return some (.add dst (.literal (← immediate word)) false)
  | .addsi =>
    if n = 0 then return some (.round dst true)
    else return some (.add dst (.literal (← immediate word)) true)
  | .cmpbi =>
    if n = 0 then return some (.testZeroByte dst)
    else return some (.testBits dst (.literal (← immediate word)))
  | .andni =>
    if n = 31 then return some (.logical .andNot dst (.literal 0x7fffffff))
    else return some (.logical .andNot dst (.literal (← immediate word)))
  | .ori => return some (.logical .or dst (.literal (← immediate word)))
  | .xori => return some (.logical .xor dst (.literal (← immediate word)))
  | .shrd => return some (← Decoder.compute (ofDoubleShift word .logical dst src))
  | .sard => return some (← Decoder.compute (ofDoubleShift word .arithmetic dst src))
  | .shld => return some (← Decoder.compute (ofDoubleShift word .left dst src))
  | .set => return some (← Decoder.compute (ofSet word dst))
  | .delayedBranch condition =>
    return some (← ofBranch word (condition.holds status) .delayedBranch)
  | .dbr => return some (← ofBranch word true .delayedBranch)
  | .branch condition => return some (← ofBranch word (condition.holds status) .branch)
  | .br => return some (← ofBranch word true .branch)
  | _ => Decoder.surely (Instruction.decode address word status)

/-- Decoding never fails. -/
lemma decode_decodes (address : Word) (word : Half) (status : Status) :
    Decodes (decode address word status : Decoder β (Option Instruction))
      (Instruction.decode address word status) := by
  obtain ⟨dst, src⟩ := Decode.fields_lt word
  refine .after (lookup_eq word) ?_
  unfold Instruction.decode
  dsimp only
  cases (Encoding.ofWord word).operation with
  | divu | divs => exact .after (ofDivision_eq dst word _ _) (.pure _)
  | mov => exact .after (ofMove_eq dst status src) (.pure _)
  | shrd | sard | shld => exact .after (ofDoubleShift_eq dst word _ _) (.pure _)
  | set => exact .after (ofSet_eq word _) (.pure _)
  | xm => exact .bind (.surely _) fun index => .after (ofIndexMove_eq word _ _ index) (.pure _)
  | cmpi | ori | xori => exact (immediate_decodes word).map _
  | movi => exact (ofMoveImmediate_decodes word status dst).map some
  | addi | addsi | cmpbi | andni =>
    dsimp only
    split
    · exact .pure _
    · exact (immediate_decodes word).map _
  | delayedBranch | dbr | branch | br => exact (ofBranch_decodes word _ _).map some
  | _ => exact .surely _

end

end Checked

/-! ## What is found -/

namespace Decode

/-- The decoded instruction, if any, has operands that the effects can calculate with. -/
def FindsSized (found : Option Instruction) : Prop := ∀ i, found = some i → i.Sized

/-- The fields of an instruction word have four bits, and a call replaces a zero by sixteen. -/
lemma decode_sized {β : Type} [Bus β] (address : Word) (word : Half) (status : Status) :
    Finds FindsSized (Instruction.decode address word status : Decode β (Option Instruction)) := by
  obtain ⟨dst, src⟩ := fields_lt word
  refine decode_finds address word status fun i form => ?_
  cases form with
  | moveDouble => exact ⟨dst, src⟩
  | divide | multiply | shiftDouble => exact dst
  | ret | load | loadNext | store | storeNext | emulate => exact src
  | indexMove scale small limit => exact small
  | call addend =>
    show (if _ then 16 else _) ≤ 16
    split <;> omega
  | _ => trivial

end Decode

end E1Machine
