import E1Machine.Cursor
import E1Machine.Instruction
import E1Machine.Operation
import E1Machine.Trap

/-!
# Decoding

From an instruction word and the halfwords after it to an instruction. Decoding depends on the status
register in two ways only: a branch fetches its offset if it is taken and skips it if not, and a move
addresses the high global registers while the high flag is set.
-/

namespace E1Machine

namespace Instruction

variable {β : Type}

/-- Whether user state addresses a high global register as destination. -/
def isPrivileged (status : Status) (dst : Operand) : Bool :=
  status.h && dst.bank == .globals && !status.s

/-- A division; its operands must be three distinct general registers. -/
def ofDivision (word : Half) (dst src : Operand) (signed : Bool) : Instruction :=
  if src = dst ∨ src = dst.next ∨ src.isPc ∨ src.isSr then
    .undefined (.divideOperands word) .divide
  else .divide dst src signed

/-- A product; no operand may be a special register. -/
def ofProduct (word : Half) (kind : ProductKind) (dst src : Operand) : Instruction :=
  if dst.isPc ∨ dst.isSr ∨ src.isPc ∨ src.isSr then
    .undefined (.multiplyOperands word)
      (match kind with
        | .single => .mulLong
        | .unsignedDouble | .signedDouble => .mulDoubleLong)
  else .multiply kind dst src

/-- A double shift; the count may not be one of the registers shifted. -/
def ofDoubleShift (word : Half) (kind : ShiftKind) (dst src : Operand) : Instruction :=
  if src = dst ∨ src = dst.next then .undefined (.doubleShiftCount word) .alu
  else .shiftDouble kind dst (.register src)

/-- An index move; the index may not be a special register. -/
def ofIndexMove (word : Half) (dst src : Operand) (index : IndexLimit) : Instruction :=
  if src.isPc ∨ src.isSr then .undefined (.indexMoveOperand word) .alu
  else
    .indexMove dst src (index.subType.toNat % 4)
      (if index.subType.msb then none else some index.limit)

/-- A `SET` instruction; neither the program counter nor a reserved code is allowed. -/
def ofSet (word : Half) (dst : Operand) : Instruction :=
  if dst.isPc then .undefined (.setIntoPc word) .alu
  else
    match SetValue.ofCode (nField word) with
    | some value => .set dst value
    | none => .undefined (.reservedSet (nField word)) .alu

/-- A signal-processing instruction. -/
def ofFunction (function : Half) (dst src : Operand) : Instruction :=
  match Accumulation.ofCode function with
  | some f => .accumulate f dst src
  | none =>
    .undefined
      (if Accumulation.isTransform function then .unsupportedTransform function
        else .unknownExtension function)
      .extend

/-- A load or store with an offset. -/
def ofOffset (transfer : DataForm → Addressing → Operand → Instruction) (address data : Operand)
    (d : Displacement) : Instruction :=
  transfer (.withOffset d) (.offset address d.step) data

/-- A load or store that advances its address register, which may not be a special register. -/
def ofAdvance (transfer : DataForm → Addressing → Operand → Instruction) (report : Diagnostic)
    (word : Half) (address data : Operand) (d : Displacement) : Instruction :=
  let form := DataForm.advancing d
  if address.isPc ∨ address.isSr then
    .undefined (.postIncrement word) ((form.map DataForm.cost).getD .memoryWord)
  else
    match form with
    | some form => transfer form (.advancing address d.step) data
    | none => .reservedTransfer address d.step report

/-- A move of a register into another. -/
def ofMove (status : Status) (dst src : Operand) : Instruction :=
  if isPrivileged status dst then .privileged
  else .move (dst.raised status.h) (src.raised status.h)

variable [Bus β]

/-- A move of a literal, which is skipped when the move is not allowed. -/
def ofMoveImmediate (word : Half) (status : Status) (dst : Operand) : Decode β Instruction := do
  if isPrivileged status dst then
    Decode.skipImmediate word
    return .privileged
  else
    return .moveImmediate (dst.raised status.h) (← Decode.immediate word)

/-- A branch: its offset is fetched if it is taken. -/
def ofBranch (word : Half) (taken : Bool) (branch : Word → Instruction) : Decode β Instruction := do
  if taken then
    return branch (← Decode.offset word)
  else
    Decode.skipOffset word
    return .fallThrough

/-- Decodes the instruction whose word was fetched from `address`; the cursor stands after the word.
There is no instruction for the one code without meaning. -/
def decode (address : Word) (word : Half) (status : Status) : Decode β (Option Instruction) := do
  let encoding := Encoding.ofWord word
  let dst := encoding.dstOperand word
  let src := encoding.srcOperand word
  let n := nField word
  let high : Byte := word.extractLsb' 8 8
  match encoding.operation with
  | .chk => return some (.check dst src)
  | .movd =>
    return some <|
      if !dst.isPc then .moveDouble dst src
      else if src.isSr then .undefined (.returnFromSr address) .controlTransfer
      else .ret src
  | .divu => return some (ofDivision word dst src false)
  | .divs => return some (ofDivision word dst src true)
  | .xm => return some (ofIndexMove word dst src (← Decode.indexLimit))
  | .mask => return some (.mask dst src (← Decode.const))
  | .sum => return some (.sum dst src (← Decode.const) false)
  | .sums => return some (.sum dst src (← Decode.const) true)
  | .cmp => return some (.compare dst (.register src))
  | .mov => return some (ofMove status dst src)
  | .add => return some (.add dst (.register src) false)
  | .adds => return some (.add dst (.register src) true)
  | .cmpb => return some (.testBits dst (.register src))
  | .andn => return some (.logical .andNot dst (.register src))
  | .or => return some (.logical .or dst (.register src))
  | .xor => return some (.logical .xor dst (.register src))
  | .subc => return some (.subCarry dst src)
  | .not => return some (.complement dst src)
  | .sub => return some (.sub dst src false)
  | .subs => return some (.sub dst src true)
  | .addc => return some (.addCarry dst src)
  | .and => return some (.logical .and dst (.register src))
  | .neg => return some (.neg dst src false)
  | .negs => return some (.neg dst src true)
  | .cmpi => return some (.compare dst (.literal (← Decode.immediate word)))
  | .movi => return some (← ofMoveImmediate word status dst)
  | .addi =>
    if n = 0 then return some (.round dst false)
    else return some (.add dst (.literal (← Decode.immediate word)) false)
  | .addsi =>
    if n = 0 then return some (.round dst true)
    else return some (.add dst (.literal (← Decode.immediate word)) true)
  | .cmpbi =>
    if n = 0 then return some (.testZeroByte dst)
    else return some (.testBits dst (.literal (← Decode.immediate word)))
  | .andni =>
    if n = 31 then return some (.logical .andNot dst (.literal 0x7fffffff))
    else return some (.logical .andNot dst (.literal (← Decode.immediate word)))
  | .ori => return some (.logical .or dst (.literal (← Decode.immediate word)))
  | .xori => return some (.logical .xor dst (.literal (← Decode.immediate word)))
  | .shrdi => return some (.shiftDouble .logical dst (.literal (BitVec.ofNat 32 n)))
  | .sardi => return some (.shiftDouble .arithmetic dst (.literal (BitVec.ofNat 32 n)))
  | .shldi => return some (.shiftDouble .left dst (.literal (BitVec.ofNat 32 n)))
  | .shrd => return some (ofDoubleShift word .logical dst src)
  | .sard => return some (ofDoubleShift word .arithmetic dst src)
  | .shld => return some (ofDoubleShift word .left dst src)
  | .shr => return some (.shift .logical dst (.register src))
  | .sar => return some (.shift .arithmetic dst (.register src))
  | .shl => return some (.shift .left dst (.register src))
  | .shri => return some (.shift .logical dst (.literal (BitVec.ofNat 32 n)))
  | .sari => return some (.shift .arithmetic dst (.literal (BitVec.ofNat 32 n)))
  | .shli => return some (.shift .left dst (.literal (BitVec.ofNat 32 n)))
  | .testlz => return some (.leadingZeros dst src)
  | .rol => return some (.rotate dst src)
  | .loadDisplacement =>
    return some (ofOffset .load dst src (← Decode.displacement))
  | .loadNext =>
    return some (ofAdvance .load (.reservedLoad word) word dst src (← Decode.displacement))
  | .storeDisplacement =>
    return some (ofOffset .store dst src (← Decode.displacement))
  | .storeNext =>
    return some (ofAdvance .store (.reservedStore word) word dst src (← Decode.displacement))
  | .ldwR => return some (.load .word (.offset dst 0) src)
  | .lddR => return some (.load .double (.offset dst 0) src)
  | .ldwP => return some (.load .word (.advancing dst 4) src)
  | .lddP => return some (.load .double (.advancing dst 8) src)
  | .stwR => return some (.store .word (.offset dst 0) src)
  | .stdR => return some (.store .double (.offset dst 0) src)
  | .stwP => return some (.store .word (.advancing dst 4) src)
  | .stdP => return some (.store .double (.advancing dst 8) src)
  | .mulu => return some (ofProduct word .unsignedDouble dst src)
  | .muls => return some (ofProduct word .signedDouble dst src)
  | .mul => return some (ofProduct word .single dst src)
  | .set => return some (ofSet word dst)
  | .software => return some (.emulate high dst.code src.code)
  | .extend => return some (ofFunction (← Decode.function) dst src)
  | .unimplemented => return none
  | .delayedBranch condition =>
    return some (← ofBranch word (condition.holds status) .delayedBranch)
  | .dbr => return some (← ofBranch word true .delayedBranch)
  | .branch condition => return some (← ofBranch word (condition.holds status) .branch)
  | .br => return some (← ofBranch word true .branch)
  | .frame => return some (.frame (word.extractLsb' 0 4) (word.extractLsb' 4 4))
  | .call =>
    return some (.call (if dst.code = 0 then 16 else dst.code) src (← Decode.const))
  | .trap =>
    let (number, code) := splitTrap word
    return some (.trap number (Condition.ofTrapCode code))
  | .reserved => return some (.reserved (.reservedOpcode word address))

end Instruction

end E1Machine
