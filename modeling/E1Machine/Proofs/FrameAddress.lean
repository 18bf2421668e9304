import E1Machine.Proofs.Emulation
import E1Machine.Proofs.GeneralRegisters

/-!
# The address of the frame

`SETADR` gives a program the stack address of its frame, so that it can pass local registers by reference. The
address is put together from the upper bits of the stack pointer and from the frame pointer, with a carry
between them. While the frame starts less than half the range of the frame pointer above the stack pointer, it
is the stack pointer plus the words in between, and stack loads from there on find the registers of the frame.

Main statement: `Machine.frame_address_names`.
-/

namespace E1Machine

/-! ## The address as a number -/

/-- The slot of a stack word is its number modulo 128. -/
lemma toNat_stackSlot (sp : Word) : (stackSlot sp).toNat = sp.toNat / 4 % 128 := by
  simp only [stackSlot, BitVec.extractLsb'_toNat, Nat.shiftRight_eq_div_pow]

/-- A signed difference of seven bits that is not negative is the difference modulo 128, and below 64. -/
lemma toNat_sub_of_nonneg {fp slot : BitVec 7} (above : 0 ≤ (fp - slot).toInt) :
    (fp - slot).toNat = (128 - slot.toNat + fp.toNat) % 128 ∧ (fp - slot).toNat < 64 := by
  have difference := BitVec.toNat_sub fp slot
  have small := (fp - slot).isLt
  rw [BitVec.toInt_eq_toNat_cond] at above
  omega

/-- The upper bits of the stack pointer and the frame pointer, put together as one address. -/
lemma toNat_patched (sp : Word) (fp : BitVec 7) :
    (sp.extractLsb' 9 23 ++ fp ++ 0#2).toNat = sp.toNat / 512 * 512 + 4 * fp.toNat := by
  have small := sp.isLt
  rw [BitVec.toNat_append, BitVec.toNat_append, ← Nat.shiftLeft_add_eq_or_of_lt fp.isLt]
  simp only [BitVec.extractLsb'_toNat, BitVec.toNat_ofNat, Nat.shiftRight_eq_div_pow,
    Nat.shiftLeft_eq, Nat.zero_mod, Nat.or_zero]
  omega

/-- The carry is right: it is due exactly where the frame pointer has gone round and the stack pointer has
not. -/
lemma patched_eq {sp : Word} {fp : BitVec 7} (aligned : sp.toNat % 4 = 0)
    (above : 0 ≤ (fp - stackSlot sp).toInt) :
    (sp.extractLsb' 9 23 ++ fp ++ 0#2) + (if sp.getLsbD 8 && !fp.msb then 0x200 else 0 : Word) =
      sp + BitVec.ofNat 32 (4 * (fp - stackSlot sp).toNat) := by
  obtain ⟨distance, near⟩ := toNat_sub_of_nonneg above
  rw [toNat_stackSlot] at distance
  have small := fp.isLt
  have upper : sp.getLsbD 8 = decide (sp.toNat / 256 % 2 = 1) := Nat.testBit_eq_decide_div_mod_eq
  have carry : (if sp.getLsbD 8 && !fp.msb then 0x200 else 0 : Word).toNat =
      if sp.toNat / 256 % 2 = 1 ∧ fp.toNat < 64 then 512 else 0 := by
    rw [upper, BitVec.msb_eq_decide]
    by_cases high : sp.toNat / 256 % 2 = 1 <;> by_cases low : fp.toNat < 64 <;> simp [high, low]
  apply BitVec.eq_of_toNat_eq
  rw [BitVec.toNat_add, BitVec.toNat_add, toNat_patched, carry, BitVec.toNat_ofNat]
  split <;> omega

namespace Cpu

/-- The stack address of the current frame: the frame starts as many words above the stack pointer as the frame
pointer is above the stack pointer's slot, modulo 128. -/
def frameAddress (c : Cpu) : Word :=
  c.regs.sp + BitVec.ofNat 32 (4 * (c.status.fp - stackSlot c.regs.sp).toNat)

/-- The stack address of a register of the frame. -/
def localAddress (c : Cpu) (code : Nat) : Word := c.frameAddress + BitVec.ofNat 32 (4 * code)

section

variable {c : Cpu} (room : c.regs.sp.toNat ≤ 0xfffffc00)
  (above : 0 ≤ (c.status.fp - stackSlot c.regs.sp).toInt) {i : Nat} (inside : i < 16)
include room above inside

/-- The stack address of a register counts up from the frame without going round. -/
lemma toNat_localAddress :
    (c.localAddress i).toNat =
      c.regs.sp.toNat + 4 * (c.status.fp - stackSlot c.regs.sp).toNat + 4 * i := by
  obtain ⟨-, near⟩ := toNat_sub_of_nonneg above
  simp only [localAddress, frameAddress, BitVec.toNat_add, BitVec.toNat_ofNat]
  omega

/-- The cell of the bank at the stack address of a register is the register. -/
lemma stackCell_localAddress : stackCell (c.localAddress i) = c.regs.slot i := by
  obtain ⟨distance, -⟩ := toNat_sub_of_nonneg above
  rw [toNat_stackSlot] at distance
  have small := c.status.fp.isLt
  apply Fin.ext
  show (c.localAddress i).toNat / 4 % 64 = (i + c.status.fp.toNat) % 64
  rw [toNat_localAddress room above inside]
  omega

end

end Cpu

namespace Machine

variable {β : Type} [Bus β]

/-- Stack loads at an address find a register of the frame of `m`, in every machine that is in that frame. The
address register is advanced first, so that a load through the register itself finds it advanced. -/
structure Finds (m : Machine β) (code : Nat) (addr : Word) : Prop where
  backs (later : Machine β) (still : later.cpu.regs.sp = m.cpu.regs.sp) :
    later.Backs (m.cpu.regs.slot code) addr
  loads (later : Machine β) (still : later.cpu.regs.sp = m.cpu.regs.sp)
    (frame : later.cpu.status.fp = m.cpu.status.fp) {address : Operand} (general : address.IsGeneral)
    (holds : later.cpu.read address = addr) (step : Word) (data : Operand) :
    let advanced := later.cpu.write address (addr + step)
    (execute (.load .stack (.advancing address step) data)).run later =
      ((), ⟨(advanced.write data (advanced.read ⟨.locals, code⟩)).charge DataForm.stack.cost,
        later.bus⟩) ∧
    (address.Apart ⟨.locals, code⟩ →
      advanced.read ⟨.locals, code⟩ = later.cpu.read ⟨.locals, code⟩)

/-- A register that is backed at an address is found there. -/
lemma finds_of_backs {m : Machine β} {code : Nat} {addr : Word}
    (backs : ∀ later : Machine β, later.cpu.regs.sp = m.cpu.regs.sp →
      later.Backs (m.cpu.regs.slot code) addr) : m.Finds code addr := by
  refine ⟨backs, fun later still frame address general holds step data => ⟨?_, fun apart => ?_⟩⟩
  · obtain ⟨advanced, eq⟩ : ∃ advanced, advanced = later.cpu.write address (addr + step) := ⟨_, rfl⟩
    have slot : m.cpu.regs.slot code = advanced.regs.slot code := by
      rw [eq]
      exact congrArg (fun fp : BitVec 7 => localSlot code fp.toNat) (frame.symm.trans
        (congrArg Status.fp (later.cpu.write_general_status general _)).symm)
    have backed : Backs ⟨later.cpu.write address (later.cpu.read address + step), later.bus⟩
        (advanced.regs.slot code) (later.cpu.read address) := by
      rw [holds, ← slot]
      exact backs _ ((later.cpu.write_general_sp general _).trans still)
    have run := load_backed step data backed
    rw [holds, ← eq] at run
    rw [← eq]
    exact run
  · exact later.cpu.read_write_apart general (Operand.isGeneral_local code) apart _

/-- `SETADR` stores the stack address of the current frame, wherever the frame starts no lower than the stack
pointer and this leaves 1024 bytes of addresses above it. From the address stored on, stack loads find the
registers of the frame. -/
theorem frame_address_names (m : Machine β) (aligned : m.cpu.regs.sp.toNat % 4 = 0)
    (room : m.cpu.regs.sp.toNat ≤ 0xfffffc00)
    (above : 0 ≤ (m.cpu.status.fp - stackSlot m.cpu.regs.sp).toInt) :
    (∀ dst, (execute (.set dst .frameAddress)).run m =
      ((), ⟨(m.cpu.write dst m.cpu.frameAddress).charge .alu, m.bus⟩)) ∧
    ∀ i < 16, m.Finds i (m.cpu.localAddress i) := by
  refine ⟨fun dst => ?_, fun i inside => finds_of_backs fun later still => ?_⟩
  · unfold Cpu.frameAddress
    rw [← patched_eq aligned above]
    rfl
  · rw [← Cpu.stackCell_localAddress room above inside]
    refine backs_of_le ?_
    rw [still, Cpu.toNat_localAddress room above inside]
    omega

/-- A machine whose frame pointer has gone round while its stack pointer has not: the frame starts four words
above the stack pointer at 0x11f8. -/
def wrappedFrame : Machine (DeviceBus FlatMemory) :=
  let m := powerOn Variant.e132t.config {}
  ⟨m.cpu.modifyRegs fun r => (((r.setSp 0x11f8).setGlobal 2 0x120c).modifyStatus
    fun status => { status with fp := 2, fl := 2 }).setInFrame 1 7, m.bus⟩

/-- The frame has the address 0x1208, and a stack load at the next word finds the 7 in local register 1. -/
theorem wrappedFrame_named :
    ((execute (.set ⟨.globals, 3⟩ .frameAddress)).run wrappedFrame).2.cpu.read ⟨.globals, 3⟩ = 0x1208 ∧
    ((execute (.load .stack (.advancing ⟨.globals, 2⟩ 4) ⟨.globals, 3⟩)).run wrappedFrame).2.cpu.read
      ⟨.globals, 3⟩ = 7 := by
  have address : wrappedFrame.cpu.frameAddress = 0x1208 := by decide +kernel
  obtain ⟨stores, finds⟩ := frame_address_names wrappedFrame (by decide +kernel) (by decide +kernel)
    (by decide +kernel)
  have general : Operand.IsGeneral ⟨.globals, 2⟩ := by decide
  obtain ⟨loads, current⟩ := (finds 1 (by decide)).loads wrappedFrame rfl rfl general
    (by decide +kernel) 4 ⟨.globals, 3⟩
  constructor
  · rw [stores, address]
    exact Cpu.read_write (o := ⟨.globals, 3⟩) (by decide) _ _
  · rw [loads]
    refine (Cpu.read_write (o := ⟨.globals, 3⟩) (by decide) _ _).trans ((current (by decide)).trans ?_)
    decide +kernel

end Machine

end E1Machine
