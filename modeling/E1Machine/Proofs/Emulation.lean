import E1Machine.Bus.Flat
import E1Machine.Proofs.DelaySlots

/-!
# Emulated instructions

An instruction that the guest emulates hands its operands over in the frame of the emulation routine: both
source registers by value, and the destination as a stack address. The address lies in the page above the
stack pointer, where stack loads and stores use the register bank, and its slot is that of the destination.
So the routine reads and writes the destination through the frame that hides it.

Main statement: `Machine.emulation_hands_over`.
-/

namespace E1Machine

/-- A frame has sixteen registers at most. -/
lemma Status.frameLength_le (s : Status) : s.frameLength ≤ 16 := by
  unfold frameLength
  split
  · exact Nat.le_refl 16
  · exact Nat.le_of_lt s.fl.isLt

namespace Cpu

/-! ## The address of the destination -/

/-- The stack address that is handed over lies in the page above the stack pointer, at the slot of the register. -/
lemma toNat_stackAddress (c : Cpu) (code : Nat) (room : c.regs.sp.toNat < 0xffffff00) :
    (c.stackAddress code).toNat =
      c.regs.sp.toNat / 256 * 256 + 256 + 4 * (c.regs.slot code).val := by
  have slot := (c.regs.slot code).isLt
  simp only [stackAddress, BitVec.toNat_add, BitVec.toNat_append, BitVec.extractLsb'_toNat,
    BitVec.ofNat_eq_ofNat, BitVec.toNat_ofNat, Nat.shiftRight_eq_div_pow, Nat.shiftLeft_eq, Nat.zero_mod, Nat.or_zero]
  omega

/-- The stack address of a register lies above the stack pointer. -/
lemma sp_le_stackAddress (c : Cpu) (code : Nat) (room : c.regs.sp.toNat < 0xffffff00) :
    c.regs.sp.toNat ≤ (c.stackAddress code).toNat := by
  rw [c.toNat_stackAddress code room]
  omega

/-- The stack address of a register belongs to its slot. -/
lemma stackCell_stackAddress (c : Cpu) (code : Nat) (room : c.regs.sp.toNat < 0xffffff00) :
    stackCell (c.stackAddress code) = c.regs.slot code := by
  have slot := (c.regs.slot code).isLt
  apply Fin.ext
  unfold stackCell
  rw [c.toNat_stackAddress code room, Fin.val_ofNat]
  omega

/-- A register of the current frame is none of the first ones of the next frame. -/
lemma slot_ne_next (c : Cpu) {code k : Nat} (inside : code < c.status.frameLength) (few : k < 5)
    {fp : BitVec 7} (next : fp = c.status.fp + BitVec.ofNat 7 c.status.frameLength) :
    localSlot k fp.toNat ≠ c.regs.slot code := by
  have short := c.status.frameLength_le
  rw [next, localSlot_add]
  intro same
  have codes := localSlot_inj same
  omega

end Cpu

namespace Machine

variable {β : Type} [Bus β]

/-! ## Stack words in registers -/

/-- Whether a local register holds the stack word at an address: stack loads and stores there read and write the
register, and use no memory. -/
structure Backs (m : Machine β) (slot : Fin 64) (addr : Word) : Prop where
  load (data : Operand) : (loadData .stack addr data).run m =
    ((), ⟨m.cpu.write data (m.cpu.regs.localAt slot), m.bus⟩)
  store (data : Operand) : (storeData .stack addr data).run m =
    ((), ⟨m.cpu.modifyRegs (·.setLocalAt slot (m.cpu.stored data).1), m.bus⟩)

/-- The bank holds the stack words above the stack pointer. -/
lemma backs_of_le {m : Machine β} {addr : Word} (above : m.cpu.regs.sp.toNat ≤ addr.toNat) :
    m.Backs (stackCell addr) addr := by
  have high : addr.ult m.cpu.regs.sp = false :=
    decide_eq_false (Nat.not_lt_of_le above)
  constructor
  · intro data
    rw [loadData_stack_run, high]
    rfl
  · intro data
    rw [storeData_stack_run, high]
    rfl

/-! ## Handing over -/

/-- In `done` the emulation of an instruction with these operand fields has been entered from `m`. -/
structure HandsOver (dst src : Nat) (m done : Machine β) : Prop where
  fp : done.cpu.status.fp = m.cpu.status.fp + BitVec.ofNat 7 m.cpu.status.frameLength
  fl : done.cpu.status.fl = 6
  first : done.cpu.read ⟨.locals, 1⟩ = m.cpu.read ⟨.locals, src⟩
  second : done.cpu.read ⟨.locals, 2⟩ = m.cpu.read ⟨.locals, src + 1⟩
  returnPc : done.cpu.read ⟨.locals, 3⟩ =
    Cpu.returnTo (alignHalf (m.cpu.regs.pc + 2)) m.cpu.status.s
  saved : done.cpu.read ⟨.locals, 4⟩ = { m.cpu.status with ilc := 1 }.bits
  destination : done.cpu.regs.localAt (m.cpu.regs.slot dst) = m.cpu.read ⟨.locals, dst⟩
  others (slot : Fin 64) (outside : ∀ k < 5, done.cpu.regs.slot k ≠ slot) :
    done.cpu.regs.localAt slot = m.cpu.regs.localAt slot
  backs (later : Machine β) (still : later.cpu.regs.sp = m.cpu.regs.sp) :
    later.Backs (m.cpu.regs.slot dst) (done.cpu.read ⟨.locals, 0⟩)
  loads (step : Word) (data : Operand) :
    (execute (.load .stack (.advancing ⟨.locals, 0⟩ step) data)).run done =
      ((), ⟨((done.cpu.write ⟨.locals, 0⟩ (done.cpu.read ⟨.locals, 0⟩ + step)).write data
        (m.cpu.read ⟨.locals, dst⟩)).charge DataForm.stack.cost, done.bus⟩)
  stores (step : Word) (data : Operand) :
    (execute (.store .stack (.advancing ⟨.locals, 0⟩ step) data)).run done =
      ((), ⟨((done.cpu.charge DataForm.stack.cost).modifyRegs
        (·.setLocalAt (m.cpu.regs.slot dst) (done.cpu.stored data).1)).write ⟨.locals, 0⟩
          (done.cpu.read ⟨.locals, 0⟩ + step), done.bus⟩)

/-- A stack load through a register that holds the address of a backed word advances the register first. -/
lemma load_backed {m : Machine β} {address : Operand} {slot : Fin 64} (step : Word) (data : Operand)
    (backs : Backs ⟨m.cpu.write address (m.cpu.read address + step), m.bus⟩ slot (m.cpu.read address)) :
    (execute (.load .stack (.advancing address step) data)).run m =
      ((), ⟨((m.cpu.write address (m.cpu.read address + step)).write data
        ((m.cpu.write address (m.cpu.read address + step)).regs.localAt slot)).charge
          DataForm.stack.cost, m.bus⟩) := by
  have run : (execute (.load .stack (.advancing address step) data)).run m =
      (loadData .stack (m.cpu.read address) data >>= fun _ =>
        modifyCpu (·.charge DataForm.stack.cost) : Exec β Unit).run
        ⟨m.cpu.write address (m.cpu.read address + step), m.bus⟩ := rfl
  rw [run, run_bind, backs.load]
  rfl

/-- A stack store advances it last. -/
lemma store_backed {m : Machine β} {address : Operand} {slot : Fin 64} (step : Word) (data : Operand)
    (backs : Backs ⟨m.cpu.charge DataForm.stack.cost, m.bus⟩ slot (m.cpu.read address)) :
    (execute (.store .stack (.advancing address step) data)).run m =
      ((), ⟨((m.cpu.charge DataForm.stack.cost).modifyRegs
        (·.setLocalAt slot (m.cpu.stored data).1)).write address (m.cpu.read address + step),
          m.bus⟩) := by
  have run : (execute (.store .stack (.advancing address step) data)).run m =
      (storeData .stack (m.cpu.read address) data >>= fun _ =>
        modifyCpu (·.write address (m.cpu.read address + step)) : Exec β Unit).run
        ⟨m.cpu.charge DataForm.stack.cost, m.bus⟩ := rfl
  rw [run, run_bind, backs.store]
  rfl

/-- What the entry of an emulation routine hands over, when the instruction has been fetched from `m`. -/
lemma handsOver_of_fetched {m : Machine β} {c : Cpu} {dst src : Nat} (byte : Byte) (bus : β)
    (room : m.cpu.regs.sp.toNat < 0xffffff00) (inside : dst < m.cpu.status.frameLength)
    (status : c.status = m.cpu.status) (sp : c.regs.sp = m.cpu.regs.sp)
    (locals : ∀ slot, c.regs.localAt slot = m.cpu.regs.localAt slot)
    (pc : c.regs.pc = alignHalf (m.cpu.regs.pc + 2)) :
    HandsOver dst src m ⟨c.enterEmulation byte dst src, bus⟩ := by
  have register (code : Nat) : c.regs.slot code = m.cpu.regs.slot code := by
    show localSlot code c.status.fp.toNat = localSlot code m.cpu.status.fp.toNat
    rw [status]
  have operand (code : Nat) : c.regs.inFrame code = m.cpu.read ⟨.locals, code⟩ :=
    (locals _).trans (congrArg m.cpu.regs.localAt (register code))
  obtain ⟨⟨cause, frame, stacked, target⟩, enters, rfl, opened, -⟩ :=
    c.enterEmulation_frame byte dst src
  generalize c.enterEmulation byte dst src = d at enters opened
  have next : d.status.fp = m.cpu.status.fp + BitVec.ofNat 7 m.cpu.status.frameLength := by
    rw [enters.fp, enters.frame, status]
  have address : d.read ⟨.locals, 0⟩ = c.stackAddress dst := enters.read rfl
  have high : d.regs.sp = m.cpu.regs.sp := (enters.globals _ (by decide) (by decide)).trans sp
  -- The slot of the destination lies in the frame of the emulated program, and so not in the new one.
  have apart (k : Nat) (few : k < 5) : d.regs.slot k ≠ m.cpu.regs.slot dst :=
    m.cpu.slot_ne_next inside few next
  have kept : d.regs.localAt (m.cpu.regs.slot dst) = m.cpu.read ⟨.locals, dst⟩ :=
    (enters.localAt apart).trans (locals _)
  have backs (later : Machine β) (still : later.cpu.regs.sp = m.cpu.regs.sp) :
      later.Backs (m.cpu.regs.slot dst) (d.read ⟨.locals, 0⟩) := by
    have low : c.regs.sp.toNat < 0xffffff00 := by
      rw [sp]
      exact room
    rw [address, ← register, ← c.stackCell_stackAddress dst low]
    refine backs_of_le ?_
    rw [still, ← sp]
    exact c.sp_le_stackAddress dst low
  refine ⟨next, ?_, ?_, ?_, ?_, ?_, kept, ?_, backs, fun step data => ?_, fun step data => ?_⟩
  · rw [opened]
    rfl
  · exact (enters.read (k := 1) rfl).trans (operand src)
  · exact (enters.read (k := 2) rfl).trans (operand (src + 1))
  · refine (enters.read (k := 3) rfl).trans ?_
    show Cpu.returnTo c.regs.pc c.status.s = _
    rw [pc, status]
  · refine (enters.read (k := 4) rfl).trans ?_
    show { c.status with ilc := 1 }.bits = _
    rw [status]
  · exact fun slot outside => (enters.localAt outside).trans (locals slot)
  · rw [load_backed step data (backs ⟨d.write ⟨.locals, 0⟩ _, bus⟩ high)]
    have unmoved := d.write_localAt ⟨.locals, 0⟩ (d.read ⟨.locals, 0⟩ + step) (m.cpu.regs.slot dst)
    rw [if_neg fun named => apart 0 (by decide) named.2, kept] at unmoved
    rw [unmoved]
  · exact store_backed step data (backs ⟨d.charge DataForm.stack.cost, bus⟩ high)

/-! ## The instructions that are emulated -/

/-- Fourteen high bytes name instructions that the guest emulates. -/
lemma software_byte : ∀ byte : Byte, 0xc0 ≤ byte.toNat → byte.toNat ≤ 0xcd →
    Encoding.ofByte byte = Encoding.localPair .software := by
  decide +kernel

/-- The operand fields of the instruction word that is to be executed next, the destination first. -/
def operandFields (m : Machine β) : Nat × Nat :=
  let word := ((Bus.fetch m.cpu.regs.pc).run m.bus).1
  ((word.extractLsb' 4 4).toNat, (word.extractLsb' 0 4).toNat)

/-- The high byte of the instruction word that is to be executed next. -/
def opcode (m : Machine β) : Byte := ((Bus.fetch m.cpu.regs.pc).run m.bus).1.extractLsb' 8 8

/-- An emulated instruction is decoded to its high byte and its two operand fields. -/
lemma decode_software (address : Word) {word : Half} (status : Status)
    (emulated : Encoding.ofWord word = .localPair .software) :
    (Instruction.decode address word status : Decode β (Option Instruction)) =
      pure (some (.emulate (word.extractLsb' 8 8) (word.extractLsb' 4 4).toNat
        (word.extractLsb' 0 4).toNat)) := by
  unfold Instruction.decode
  rw [emulated]
  rfl

/-- Such an instruction is one halfword long. -/
lemma fetchNext_software {m : Machine β} (emulated : Encoding.ofByte m.opcode = .localPair .software) :
    fetchNext.run m = (.ok (.emulate m.opcode m.operandFields.1 m.operandFields.2),
      ⟨(m.cpu.begin.continueAt { pc := m.cpu.begin.regs.pc }).redirect,
        ((Bus.fetch m.cpu.regs.pc).run m.bus).2⟩) := by
  obtain ⟨found, cursor, bus, decoded, fetch⟩ := m.fetchNext_decodes
  rw [decode_software m.cpu.regs.pc m.cpu.status emulated] at decoded
  cases decoded
  exact fetch.trans (redirect_run _ _)

/-- An instruction that the guest emulates enters its routine with its operands handed over, where its
destination lies in the current frame and the stack pointer below the last page. -/
theorem emulation_hands_over (m : Machine β) (idle : m.cpu.delay.target = none)
    (room : m.cpu.regs.sp.toNat < 0xffffff00) (low : 0xc0 ≤ m.opcode.toNat) (high : m.opcode.toNat ≤ 0xcd)
    (inside : m.operandFields.1 < m.cpu.status.frameLength) :
    ∃ c, fetchNext.run m = (.ok (.emulate m.opcode m.operandFields.1 m.operandFields.2), c) ∧
      HandsOver m.operandFields.1 m.operandFields.2 m
        ((execute (.emulate m.opcode m.operandFields.1 m.operandFields.2)).run c).2 := by
  refine ⟨_, fetchNext_software (software_byte m.opcode low high), ?_⟩
  have still : (m.cpu.begin.continueAt { pc := m.cpu.begin.regs.pc }).delay.target = none := idle
  -- The fetched processor is a variable; all that matters of it is what its registers keep.
  obtain ⟨c, eq⟩ : ∃ c, c = (m.cpu.begin.continueAt { pc := m.cpu.begin.regs.pc }).redirect :=
    ⟨_, rfl⟩
  have regs : c.regs = (m.cpu.regs.setPc (m.cpu.regs.pc + 2)).setPc
      (m.cpu.regs.setPc (m.cpu.regs.pc + 2)).pc := by
    rw [eq, Cpu.redirect_eq, still]
    rfl
  rw [← eq]
  refine handsOver_of_fetched m.opcode _ room inside ?_ ?_ (fun slot => ?_) ?_
  · show c.regs.status = m.cpu.regs.status
    rw [regs, Registers.setPc, Registers.status_setGlobal _ _ _ (by decide), Registers.setPc,
      Registers.status_setGlobal _ _ _ (by decide)]
  · show c.regs.global Global.sp = m.cpu.regs.global Global.sp
    rw [regs, Registers.global_setPc _ _ (by decide), Registers.global_setPc _ _ (by decide)]
  · rw [regs, Registers.setPc, Registers.localAt_setGlobal, Registers.setPc, Registers.localAt_setGlobal]
  · rw [regs, Registers.pc_setPc, Registers.pc_setPc, alignHalf_alignHalf]

/-- A machine that is to execute an emulated instruction on the two registers of the frame that reset leaves. -/
def beforeEmulation : Machine (DeviceBus FlatMemory) :=
  (powerOn Variant.e132t.config (({} : FlatMemory).loadHalves 0x1000 [0xc001])).session
    [.host .reset, .host (.setGlobal Global.pc 0x1000), .host (.setLocal 0 5), .host (.setLocal 1 7)]

/-- The routine finds the source 7 and the destination 5, and returns to 0x1002 in supervisor state. -/
theorem beforeEmulation_hands_over :
    beforeEmulation.opcode = 0xc0 ∧ beforeEmulation.operandFields = (0, 1) ∧
    ∃ c, fetchNext.run beforeEmulation = (.ok (.emulate 0xc0 0 1), c) ∧
      let done := ((execute (.emulate 0xc0 0 1)).run c).2
      HandsOver 0 1 beforeEmulation done ∧ done.cpu.read ⟨.locals, 1⟩ = 7 ∧
        done.cpu.read ⟨.locals, 3⟩ = 0x1003 ∧
        done.cpu.regs.localAt (beforeEmulation.cpu.regs.slot 0) = 5 := by
  have opcode : beforeEmulation.opcode = 0xc0 := by decide +kernel
  have fields : beforeEmulation.operandFields = (0, 1) := by decide +kernel
  obtain ⟨c, fetched, hands⟩ := emulation_hands_over beforeEmulation (by decide +kernel)
    (by decide +kernel) (by decide +kernel) (by decide +kernel) (by decide +kernel)
  rw [opcode, fields] at fetched hands
  refine ⟨opcode, fields, c, fetched, hands, hands.first.trans ?_, hands.returnPc.trans ?_,
    hands.destination.trans ?_⟩
  · decide +kernel
  · decide +kernel
  · decide +kernel

end Machine

end E1Machine
