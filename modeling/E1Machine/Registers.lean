import E1Machine.Status

/-!
# Register banks

Thirty-two global registers, of which number 1 is the status register, and a bank of sixty-four local
registers that instructions address relative to the frame pointer. Nothing here has side effects: what
a write to a special register sets off is the concern of `E1Machine.Cpu`.

Main statements: a local register reads back what was written to its slot and no other slot changes
(`localAt_setLocalAt`), and likewise for globals (`global_setGlobal`).
-/

namespace E1Machine

/-! ## Numbers of the special global registers -/

namespace Global

/-- Program counter. -/
@[match_pattern] abbrev pc : Nat := 0
/-- Status register. -/
@[match_pattern] abbrev sr : Nat := 1
/-- High word of the accumulator. -/
@[match_pattern] abbrev accHigh : Nat := 14
/-- Low word of the accumulator. -/
@[match_pattern] abbrev accLow : Nat := 15
/-- Stack pointer. -/
@[match_pattern] abbrev sp : Nat := 18
/-- Upper stack bound. -/
@[match_pattern] abbrev ub : Nat := 19
/-- Bus control register. -/
@[match_pattern] abbrev bcr : Nat := 20
/-- Timer prescaler register. -/
@[match_pattern] abbrev tpr : Nat := 21
/-- Timer compare register. -/
@[match_pattern] abbrev tcr : Nat := 22
/-- Timer register, which counts ticks. -/
@[match_pattern] abbrev tr : Nat := 23
/-- Input status register, owned by the external lines. -/
@[match_pattern] abbrev isr : Nat := 25
/-- Function control register. -/
@[match_pattern] abbrev fcr : Nat := 26
/-- Memory control register. -/
@[match_pattern] abbrev mcr : Nat := 27

/-- Registers that a move reads as zero: bus control, timer prescaler, function and memory control. -/
def writeOnly (code : Nat) : Bool := code == bcr || code == tpr || code == fcr || code == mcr

end Global

/-- The slot of the local bank that code `code` names when the frame starts at `fp`. -/
def localSlot (code fp : Nat) : Fin 64 := Fin.ofNat 64 (code + fp)

/-- The slot of the local bank that backs the stack word at `addr`. -/
def stackCell (addr : Word) : Fin 64 := Fin.ofNat 64 (addr.toNat / 4)

/-- The seven-bit number of the stack word at `addr`, the scale on which frame pointers count. -/
def stackSlot (addr : Word) : BitVec 7 := addr.extractLsb' 2 7

/-- The register banks. Slot 1 of the global bank is unused: `status` stands in its place. -/
structure Registers where
  /-- Global registers. -/
  globals : Vector Word 32 := Vector.replicate 32 0
  /-- Local registers, by slot. -/
  locals : Vector Word 64 := Vector.replicate 64 0
  /-- Global register 1. -/
  status : Status := {}
  deriving DecidableEq

namespace Registers

/-- Global register `code`, modulo 32. -/
def global (r : Registers) (code : Nat) : Word :=
  if code % 32 = Global.sr then r.status.bits else r.globals[Fin.ofNat 32 code]

/-- Replaces global register `code`, modulo 32, verbatim. -/
def setGlobal (r : Registers) (code : Nat) (value : Word) : Registers :=
  if code % 32 = Global.sr then { r with status := Status.ofBits value }
  else { r with globals := r.globals.set (code % 32) value (Nat.mod_lt _ (by decide)) }

/-- The local register in a slot. -/
def localAt (r : Registers) (slot : Fin 64) : Word := r.locals[slot]

/-- Replaces the local register in a slot. -/
def setLocalAt (r : Registers) (slot : Fin 64) (value : Word) : Registers :=
  { r with locals := r.locals.set slot value slot.isLt }

/-- The slot of local register `code` of the current frame. -/
def slot (r : Registers) (code : Nat) : Fin 64 := localSlot code r.status.fp.toNat

/-- Local register `code` of the current frame. -/
def inFrame (r : Registers) (code : Nat) : Word := r.localAt (r.slot code)

/-- Replaces local register `code` of the current frame. -/
def setInFrame (r : Registers) (code : Nat) (value : Word) : Registers :=
  r.setLocalAt (r.slot code) value

/-- The program counter. -/
def pc (r : Registers) : Word := r.global Global.pc

/-- Replaces the program counter, bit 0 cleared. -/
def setPc (r : Registers) (value : Word) : Registers := r.setGlobal Global.pc (alignHalf value)

/-- The stack pointer. -/
def sp (r : Registers) : Word := r.global Global.sp

/-- Replaces the stack pointer verbatim. -/
def setSp (r : Registers) (value : Word) : Registers := r.setGlobal Global.sp value

/-- Updates the status register. -/
def modifyStatus (r : Registers) (f : Status → Status) : Registers := { r with status := f r.status }

/-- The global registers in order, the status register in place 1. -/
def globalList (r : Registers) : List Word := (List.range 32).map r.global

/-- The local registers by slot. -/
def localList (r : Registers) : List Word := r.locals.toList

/-- The sixteen registers that start at the frame pointer. -/
def window (r : Registers) : List Word := (List.range 16).map r.inFrame

/-! ## What each operation does to the views -/

/-- A global register that was replaced holds the new value, and every other one what it held. -/
theorem global_setGlobal (r : Registers) (a b : Nat) (value : Word) :
    (r.setGlobal a value).global b = if a % 32 = b % 32 then value else r.global b := by
  unfold global setGlobal
  by_cases ha : a % 32 = Global.sr <;> by_cases hb : b % 32 = Global.sr
  · simp [ha, hb, Status.bits_ofBits]
  · simp [ha, hb, Ne.symm hb]
  · simp [ha, hb]
  · simp [ha, hb, Fin.getElem_fin, Vector.getElem_set]

/-- A slot of the local bank that was replaced holds the new value, and every other one what it held. -/
theorem localAt_setLocalAt (r : Registers) (a b : Fin 64) (value : Word) :
    (r.setLocalAt a value).localAt b = if a = b then value else r.localAt b := by
  simp [localAt, setLocalAt, Fin.getElem_fin, Vector.getElem_set, Fin.ext_iff]

/-- Global registers do not depend on the local bank. -/
@[simp] theorem global_setLocalAt (r : Registers) (a : Fin 64) (b : Nat) (value : Word) :
    (r.setLocalAt a value).global b = r.global b := rfl

/-- The status register does not depend on the local bank. -/
@[simp] theorem status_setLocalAt (r : Registers) (a : Fin 64) (value : Word) :
    (r.setLocalAt a value).status = r.status := rfl

/-- Local registers do not depend on the global bank. -/
@[simp] theorem localAt_setGlobal (r : Registers) (a : Nat) (b : Fin 64) (value : Word) :
    (r.setGlobal a value).localAt b = r.localAt b := by
  unfold setGlobal
  split <;> rfl

/-- Only a write of global register 1 replaces the status register. -/
theorem status_setGlobal (r : Registers) (a : Nat) (value : Word) (h : a % 32 ≠ Global.sr) :
    (r.setGlobal a value).status = r.status := by
  simp [setGlobal, h]

/-- The program counter is rounded down to an even address. -/
@[simp] theorem pc_setPc (r : Registers) (value : Word) : (r.setPc value).pc = alignHalf value := by
  simp [pc, setPc, global_setGlobal]

/-- The stack pointer is kept verbatim. -/
@[simp] theorem sp_setSp (r : Registers) (value : Word) : (r.setSp value).sp = value := by
  simp [sp, setSp, global_setGlobal]

/-- A new status register changes no other global register. -/
theorem global_setStatus (r : Registers) (status : Status) {code : Nat}
    (other : code % 32 ≠ Global.sr) :
    ({ r with status := status } : Registers).global code = r.global code := by
  unfold global
  rw [if_neg other, if_neg other]

end Registers

end E1Machine
