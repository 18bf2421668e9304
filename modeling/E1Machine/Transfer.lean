import E1Machine.Cost
import E1Machine.Cursor
import E1Machine.Operand

/-!
# Transfers

The forms in which a load or store moves data between a register and memory, I/O or the spilled
part of the stack, and how a displacement selects among them.
-/

namespace E1Machine

/-- The width and space of a transfer. -/
inductive DataForm where
  /-- A byte, extended by its sign or by zeros. -/
  | byte (signed : Bool)
  /-- A halfword, extended by its sign or by zeros. -/
  | half (signed : Bool)
  /-- A word. -/
  | word
  /-- Two words and two registers. -/
  | double
  /-- An I/O word. -/
  | ioWord
  /-- Two I/O words and two registers. -/
  | ioDouble
  /-- A stack word, which is a local register unless it lies below the stack pointer. -/
  | stack
  deriving DecidableEq, Repr

namespace DataForm

/-- The cost of a transfer. -/
def cost : DataForm → CostClass
  | double | ioDouble => .memoryDouble
  | stack => .memoryStack
  | byte _ | half _ | word | ioWord => .memoryWord

/-- The form that a displacement selects for an access with an offset. -/
def withOffset (d : Displacement) : DataForm :=
  match d.subType.toNat, (d.value.extractLsb' 0 2).toNat with
  | 0, _ => .byte true
  | 1, _ => .byte false
  | 2, low => .half (low % 2 = 1)
  | _, 0 => .word
  | _, 1 => .double
  | _, 2 => .ioWord
  | _, _ => .ioDouble

/-- The form that a displacement selects for an access that advances its address register: there the
selectors of I/O mean the stack and a reserved form. -/
def advancing (d : Displacement) : Option DataForm :=
  match withOffset d with
  | .ioWord => none
  | .ioDouble => some .stack
  | form => some form

end DataForm

/-- The bytes by which a displacement moves the address: its value without the bits that selected the
form. -/
def Displacement.step (d : Displacement) : Word :=
  match d.subType.toNat with
  | 0 | 1 => d.value
  | 2 => alignHalf d.value
  | _ => alignWord d.value

/-- How a transfer finds its address. -/
inductive Addressing where
  /-- A base register and an offset; the status register as base means no base. -/
  | offset (base : Operand) (offset : Word)
  /-- A register that is advanced by a step. -/
  | advancing (address : Operand) (step : Word)
  deriving DecidableEq, Repr

end E1Machine
