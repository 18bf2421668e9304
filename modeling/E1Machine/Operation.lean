import E1Machine.Condition
import E1Machine.Operand

/-!
# Operations and their encoding

The high byte of an instruction word selects an operation and the banks of its two operand fields;
the low byte holds the fields. Most operations own four consecutive codes, whose two low bits choose
the banks.
-/

namespace E1Machine

/-- What an instruction word asks for, by mnemonic. -/
inductive Operation where
  | chk | movd | divu | divs | xm | mask | sum | sums
  | cmp | mov | add | adds | cmpb | andn | or | xor
  | subc | not | sub | subs | addc | and | neg | negs
  | cmpi | movi | addi | addsi | cmpbi | andni | ori | xori
  | shrdi | shrd | shr | sardi | sard | sar | shldi | shld | shl
  | testlz | rol
  /-- Loads with displacement, absolute address or I/O address. -/
  | loadDisplacement
  /-- Loads that advance the address register, and stack loads. -/
  | loadNext
  /-- Stores with displacement, absolute address or I/O address. -/
  | storeDisplacement
  /-- Stores that advance the address register, and stack stores. -/
  | storeNext
  | shri | sari | shli | mulu | muls | set | mul
  /-- Floating-point and other codes that guest routines emulate. -/
  | software
  | extend
  /-- The `DO` code, which has no meaning on this processor. -/
  | unimplemented
  | ldwR | lddR | ldwP | lddP | stwR | stdR | stwP | stdP
  | delayedBranch (condition : Condition)
  | dbr | frame | call
  | branch (condition : Condition)
  | br | trap | reserved
  deriving DecidableEq, Repr

/-- What the high byte of an instruction word fixes. -/
structure Encoding where
  /-- The operation. -/
  operation : Operation
  /-- The bank of the destination field. -/
  dst : Bank
  /-- The bank of the source field. -/
  src : Bank
  deriving DecidableEq, Repr

namespace Encoding

/-- Both banks chosen by the two low bits of the code. -/
def twoRegister (byte : Byte) (op : Operation) : Encoding :=
  ⟨op, .ofBit (byte.getLsbD 1), .ofBit (byte.getLsbD 0)⟩

/-- One bank chosen by bit 1; bit 0 belongs to the immediate field. -/
def oneRegister (byte : Byte) (op : Operation) : Encoding :=
  ⟨op, .ofBit (byte.getLsbD 1), .ofBit (byte.getLsbD 1)⟩

/-- A local destination, the source bank chosen by bit 0. -/
def localDestination (byte : Byte) (op : Operation) : Encoding :=
  ⟨op, .locals, .ofBit (byte.getLsbD 0)⟩

/-- Two local registers. -/
def localPair (op : Operation) : Encoding := ⟨op, .locals, .locals⟩

/-- No register choice; the fields read as globals. -/
def plain (op : Operation) : Encoding := ⟨op, .globals, .globals⟩

/-- The encoding with a given high byte. -/
def ofByte (byte : Byte) : Encoding :=
  let two := twoRegister byte
  let one := oneRegister byte
  let low := byte.toNat % 16
  match byte.toNat / 16, low / 4 with
  | 0x0, 0 => two .chk
  | 0x0, 1 => two .movd
  | 0x0, 2 => two .divu
  | 0x0, _ => two .divs
  | 0x1, 0 => two .xm
  | 0x1, 1 => two .mask
  | 0x1, 2 => two .sum
  | 0x1, _ => two .sums
  | 0x2, 0 => two .cmp
  | 0x2, 1 => two .mov
  | 0x2, 2 => two .add
  | 0x2, _ => two .adds
  | 0x3, 0 => two .cmpb
  | 0x3, 1 => two .andn
  | 0x3, 2 => two .or
  | 0x3, _ => two .xor
  | 0x4, 0 => two .subc
  | 0x4, 1 => two .not
  | 0x4, 2 => two .sub
  | 0x4, _ => two .subs
  | 0x5, 0 => two .addc
  | 0x5, 1 => two .and
  | 0x5, 2 => two .neg
  | 0x5, _ => two .negs
  | 0x6, 0 => one .cmpi
  | 0x6, 1 => one .movi
  | 0x6, 2 => one .addi
  | 0x6, _ => one .addsi
  | 0x7, 0 => one .cmpbi
  | 0x7, 1 => one .andni
  | 0x7, 2 => one .ori
  | 0x7, _ => one .xori
  | 0x8, _ => localPair <| match low with
    | 0 | 1 => .shrdi
    | 2 => .shrd
    | 3 => .shr
    | 4 | 5 => .sardi
    | 6 => .sard
    | 7 => .sar
    | 8 | 9 => .shldi
    | 10 => .shld
    | 11 => .shl
    | 14 => .testlz
    | 15 => .rol
    | _ => .reserved
  | 0x9, 0 => two .loadDisplacement
  | 0x9, 1 => two .loadNext
  | 0x9, 2 => two .storeDisplacement
  | 0x9, _ => two .storeNext
  | 0xa, 0 => one .shri
  | 0xa, 1 => one .sari
  | 0xa, 2 => one .shli
  | 0xa, _ => plain .reserved
  | 0xb, 0 => two .mulu
  | 0xb, 1 => two .muls
  | 0xb, 2 => one .set
  | 0xb, _ => two .mul
  | 0xc, _ => match low with
    | 14 => localPair .extend
    | 15 => plain .unimplemented
    | _ => localPair .software
  | 0xd, _ => localDestination byte <| match low / 2 with
    | 0 => .ldwR
    | 1 => .lddR
    | 2 => .ldwP
    | 3 => .lddP
    | 4 => .stwR
    | 5 => .stdR
    | 6 => .stwP
    | _ => .stdP
  | 0xe, _ => match Condition.ofBranchCode low, low with
    | some condition, _ => plain (.delayedBranch condition)
    | none, 12 => plain .dbr
    | none, 13 => localPair .frame
    | none, _ => localDestination byte .call
  | _, _ => match Condition.ofBranchCode low, low with
    | some condition, _ => plain (.branch condition)
    | none, 12 => plain .br
    | none, _ => plain .trap

/-- The encoding of an instruction word. -/
def ofWord (word : Half) : Encoding := ofByte (word.extractLsb' 8 8)

/-- The destination operand of an instruction word: bits 4 to 7. -/
def dstOperand (e : Encoding) (word : Half) : Operand := ⟨e.dst, (word.extractLsb' 4 4).toNat⟩

/-- The source operand of an instruction word: bits 0 to 3. -/
def srcOperand (e : Encoding) (word : Half) : Operand := ⟨e.src, (word.extractLsb' 0 4).toNat⟩

end Encoding

end E1Machine
