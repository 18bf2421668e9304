import E1Machine.Proofs.EntryFrames
import E1Machine.Proofs.Resetting

/-!
# Alignment

The program counter of a processor is always even, and its stack pointer and the upper bound of the stack are
multiples of four: writes round them, jumps round the program counter, and spills and refills move the stack
pointer by words. So every request that a processor makes of its bus has the alignment of its width: those of
loads and stores are rounded as they are made, and instruction fetches and refills rely on the registers.

Main statement: `Machine.reaches_served`, whatever a bus keeps under aligned requests it keeps under any moves of
a machine that starts aligned.
-/

namespace E1Machine

/-- What is rounded down to a word is a multiple of four. -/
lemma alignWord_mod (addr : Word) : (alignWord addr).toNat % 4 = 0 := by
  rw [toNat_alignWord]
  exact Nat.mul_mod_left _ _

/-- What is rounded down to a halfword is even. -/
lemma alignHalf_mod (addr : Word) : (alignHalf addr).toNat % 2 = 0 := by
  rw [toNat_alignHalf]
  exact Nat.mul_mod_left _ _

/-! ## Aligned processors -/

namespace Cpu

/-- The program counter is even, and the stack pointer and its bound are multiples of four. -/
structure Aligned (c : Cpu) : Prop where
  pc : c.regs.pc.toNat % 2 = 0
  sp : c.regs.sp.toNat % 4 = 0
  ub : (c.regs.global Global.ub).toNat % 4 = 0

namespace Aligned

variable {c d : Cpu} (aligned : c.Aligned)
include aligned

/-- What moves the program counter to an even address and leaves the other global registers alone. -/
lemma turn (even : d.regs.pc.toNat % 2 = 0)
    (others : ∀ code, code % 32 ≠ Global.pc → code % 32 ≠ Global.sr →
      d.regs.global code = c.regs.global code) : d.Aligned where
  pc := even
  sp := (congrArg (·.toNat % 4) (others Global.sp (by decide) (by decide))).trans aligned.sp
  ub := (congrArg (·.toNat % 4) (others Global.ub (by decide) (by decide))).trans aligned.ub

/-- Alignment does not depend on the status register. -/
lemma quiet (same : ∀ code, code % 32 ≠ Global.sr → d.regs.global code = c.regs.global code) :
    d.Aligned :=
  aligned.turn ((congrArg (·.toNat % 2) (same Global.pc (by decide))).trans aligned.pc)
    fun code _ => same code

/-- Alignment depends on nothing but the registers. -/
lemma ofRegs (same : d.regs = c.regs) : d.Aligned := aligned.quiet fun _ _ => by rw [same]

/-- A change of the status register keeps alignment. -/
lemma modifyStatus (f : Status → Status) : (c.modifyStatus f).Aligned :=
  aligned.quiet fun _ notSr => Registers.global_setStatus _ _ notSr

/-- The program counter is even after it is set. -/
lemma setPc (target : Word) : (c.setPc target).Aligned :=
  aligned.turn ((congrArg (·.toNat % 2) (Registers.pc_setPc _ _)).trans (alignHalf_mod target))
    fun _ notPc _ => Registers.global_setPc _ _ notPc

/-- A jump keeps alignment, wherever it goes. -/
lemma jump (target : Word) : (c.jump target).Aligned :=
  (aligned.setPc target).ofRegs rfl

/-- The stack pointer may be set to any multiple of four. -/
lemma setSp {value : Word} (multiple : value.toNat % 4 = 0) :
    (c.modifyRegs (·.setSp value)).Aligned where
  pc := (congrArg (·.toNat % 2) ((Registers.global_setGlobal ..).trans (if_neg (by decide)))).trans
    aligned.pc
  sp := (congrArg (·.toNat % 4) (Registers.sp_setSp _ _)).trans multiple
  ub := (congrArg (·.toNat % 4) ((Registers.global_setGlobal ..).trans (if_neg (by decide)))).trans
    aligned.ub

/-- Local registers have no part in alignment. -/
lemma fillFrame (code : Nat) (values : List Word) : (c.fillFrame code values).Aligned := by
  obtain ⟨locals, eq⟩ := fillFrame_changes values c code
  rw [eq]
  exact aligned.quiet fun _ _ => rfl

/-- A write rounds what it writes into the program counter, the stack pointer and its bound. -/
lemma setGlobal (code : Nat) (value : Word) : (c.setGlobal code value).Aligned := by
  have written (number : Nat) (v : Word) : (c.regs.setGlobal number v).global number = v :=
    (Registers.global_setGlobal ..).trans (if_pos rfl)
  refine ⟨?_, ?_, ?_⟩
  · by_cases named : code % 32 = Global.pc
    · unfold Cpu.setGlobal
      rw [named]
      exact (congrArg (·.toNat % 2) (written Global.pc _)).trans (alignHalf_mod value)
    · rw [Registers.pc, c.setGlobal_others named (by decide)]
      exact aligned.pc
  · by_cases named : code % 32 = Global.sp
    · unfold Cpu.setGlobal
      rw [named]
      exact (congrArg (·.toNat % 4) (written Global.sp _)).trans (alignWord_mod value)
    · rw [Registers.sp, c.setGlobal_others named (by decide)]
      exact aligned.sp
  · by_cases named : code % 32 = Global.ub
    · unfold Cpu.setGlobal
      rw [named]
      exact (congrArg (·.toNat % 4) (written Global.ub _)).trans (alignWord_mod value)
    · rw [c.setGlobal_others named (by decide)]
      exact aligned.ub

/-- A write of any register keeps alignment, since the stack pointer and its bound are rounded down. -/
lemma write (o : Operand) (value : Word) : (c.write o value).Aligned := by
  obtain ⟨bank, code⟩ := o
  cases bank with
  | globals => exact aligned.setGlobal code value
  | locals => exact aligned.quiet fun _ _ => rfl

/-- Storing a register other than these. -/
lemma store {code : Nat} (apart : ∀ other ∈ [Global.pc, Global.sp, Global.ub], code % 32 ≠ other % 32)
    (value : Word) : (c.store code value).Aligned := by
  have kept {other : Nat} (mem : other ∈ [Global.pc, Global.sp, Global.ub]) :
      (c.store code value).regs.global other = c.regs.global other :=
    (Registers.global_setGlobal ..).trans (if_neg (apart other mem))
  refine ⟨?_, ?_, ?_⟩
  · exact (congrArg (·.toNat % 2) (kept (by decide))).trans aligned.pc
  · exact (congrArg (·.toNat % 4) (kept (by decide))).trans aligned.sp
  · exact (congrArg (·.toNat % 4) (kept (by decide))).trans aligned.ub

/-- Applying a prescaler value writes none of the three registers. -/
lemma applyPrescale (tpr : Word) : (c.applyPrescale tpr).Aligned :=
  store (c := { c with timer := c.timer.setPrescale c.cycles tpr }) (aligned.ofRegs rfl) (by decide) _

end Aligned

/-- An entry changes no aligned register but the program counter. -/
lemma EntersFrame.aligned {c d : Cpu} {e : Entry} (enters : EntersFrame c e d)
    (even : d.regs.pc.toNat % 2 = 0) (aligned : c.Aligned) : d.Aligned :=
  aligned.turn even enters.globals

/-- The handler at a vector starts aligned. -/
lemma enterFrame_aligned {c : Cpu} (cause : EntryCause) (vector : Word) (length : BitVec 4)
    (aligned : c.Aligned) : (c.enterFrame cause vector length).Aligned := by
  obtain ⟨e, enters, -, -, pc⟩ := c.enterFrame_frame cause vector length
  exact enters.aligned (by rw [pc]; exact alignHalf_mod vector) aligned

/-- The routine that emulates an instruction starts aligned. -/
lemma enterEmulation_aligned {c : Cpu} (byte : Byte) (dst src : Nat) (aligned : c.Aligned) :
    (c.enterEmulation byte dst src).Aligned := by
  obtain ⟨e, enters, -, -, pc⟩ := c.enterEmulation_frame byte dst src
  exact enters.aligned (by rw [pc]; exact alignHalf_mod _) aligned

/-- Whatever handler an instruction enters starts aligned. -/
lemma EntersBy.aligned {i : Instruction} {c d : Cpu} (enters : EntersBy i c d)
    (aligned : c.Aligned) : d.Aligned := by
  cases enters with
  | trap => exact enterFrame_aligned _ _ _ aligned
  | emulation => exact enterEmulation_aligned _ _ _ aligned
  | exception => exact enterFrame_aligned _ _ _ aligned

end Cpu

/-- Whether an instruction moves the stack pointer by spills or refills. -/
def Instruction.movesStack : Instruction → Bool
  | frame _ _ | ret _ => true
  | _ => false

namespace Cpu

/-- Work other than that of the register stack keeps the processor aligned. -/
lemma Work.aligned {i : Instruction} {c d : Cpu} (work : Work i c d) (still : i.movesStack = false)
    (aligned : c.Aligned) : d.Aligned := by
  cases work with
  | flags keeps => exact aligned.modifyStatus _
  | write target value => exact aligned.write _ value
  | spend | report | delay => exact aligned.ofRegs rfl
  | push => exact aligned.quiet fun _ _ => rfl
  | branch target => exact aligned.jump target
  | call stacked target =>
    exact (((aligned.fillFrame _ stacked).modifyStatus fun s =>
      { s with fp := s.fp + BitVec.ofNat 7 _, fl := 6, m := false }).jump target).ofRegs rfl
  | reframe | spill | resume | refill => cases still

/-- The work of an instruction that moves no stack words keeps alignment. -/
lemma Worked.aligned {i : Instruction} {c d : Cpu} (worked : Worked i c d)
    (still : i.movesStack = false) (aligned : c.Aligned) : d.Aligned := by
  induction worked with
  | refl => exact aligned
  | tail _ work ih => exact work.aligned still ih

/-- An instruction that moves no stack words keeps alignment, whether or not it enters a handler. -/
lemma Outcome.aligned {i : Instruction} {c d : Cpu} (outcome : Outcome i c d)
    (still : i.movesStack = false) (aligned : c.Aligned) : d.Aligned := by
  obtain ⟨e, worked, ends⟩ := outcome
  have before := Worked.aligned worked still aligned
  cases ends with
  | done => exact before
  | enters enters n =>
    exact (enters.aligned before).ofRegs rfl
  | advances late value => exact (enterFrame_aligned _ _ _ before).write _ value

/-! ## Around the instruction -/

/-- The handler of an exception starts aligned. -/
lemma raise_aligned {c : Cpu} (exception : Exception) (aligned : c.Aligned) :
    (c.raise exception).Aligned :=
  enterFrame_aligned _ _ _ aligned

/-- An exception that may be raised keeps alignment. -/
lemma raiseIf_aligned {c : Cpu} (condition : Bool) (exception : Exception) (aligned : c.Aligned) :
    (c.raiseIf condition exception).Aligned := by
  cases condition with
  | false => exact aligned
  | true => exact raise_aligned exception aligned

/-- The program counter is even when the extension halfwords are fetched. -/
lemma begin_aligned {c : Cpu} (aligned : c.Aligned) : c.begin.Aligned :=
  (aligned.setPc (c.regs.pc + 2)).ofRegs rfl

/-- The program counter is even where decoding has come to. -/
lemma continueAt_aligned {c : Cpu} (cursor : Cursor) (aligned : c.Aligned) :
    (c.continueAt cursor).Aligned :=
  (aligned.setPc cursor.pc).ofRegs rfl

/-- The target of a delayed branch is rounded down when it is followed. -/
lemma redirect_aligned {c : Cpu} (aligned : c.Aligned) : c.redirect.Aligned := by
  rw [redirect_eq]
  cases c.delay.target with
  | none => exact aligned.ofRegs rfl
  | some target => exact (aligned.setPc target).ofRegs rfl

/-- The address to return to is rounded down. -/
lemma resume_aligned {c : Cpu} (address saved : Word) (aligned : c.Aligned) :
    (c.resume address saved).Aligned :=
  ((aligned.jump address).modifyStatus fun _ =>
    { Status.ofBits saved with s := address.getLsbD 0, ilc := 0 }).ofRegs rfl

/-- The tasks after an instruction keep alignment. -/
lemma finish_aligned {c : Cpu} (wasHigh : Bool) (aligned : c.Aligned) : (c.finish wasHigh).Aligned :=
  (raiseIf_aligned _ .trace ((aligned.modifyStatus fun s => { s with h := s.h ^^ wasHigh }).modifyStatus
    fun s => { s with ilc := BitVec.ofNat 2 c.length })).ofRegs rfl

/-- The handler of an interrupt starts aligned. -/
lemma takeInterrupt_aligned {c : Cpu} (source : InterruptSource) (aligned : c.Aligned) :
    (c.takeInterrupt source).Aligned :=
  enterFrame_aligned _ _ _ (aligned.ofRegs rfl)

/-! ## The host -/

/-- The callback of the timer keeps alignment. -/
lemma timerExpired_aligned {c : Cpu} (aligned : c.Aligned) : c.timerExpired.Aligned := by
  unfold timerExpired Timer.takeDeadline
  cases c.timer.deadline with
  | none => exact aligned
  | some deadline =>
    dsimp only
    generalize applied : (if deadline.reloadPrescale then _ else _) = d
    have kept : d.Aligned := by
      rw [← applied]
      split
      · exact Aligned.applyPrescale (c := { c with timer := { c.timer with deadline := none } })
          (aligned.ofRegs rfl) _
      · exact aligned.ofRegs rfl
    split
    · exact kept.ofRegs rfl
    · exact kept.ofRegs rfl

/-- A reset keeps alignment. -/
lemma reset_aligned {c : Cpu} (aligned : c.Aligned) : c.reset.Aligned := by
  have recovered := c.reset_recovered
  refine ⟨?_, ?_, ?_⟩
  · rw [recovered.pc]
    decide
  · exact (congrArg (·.toNat % 4) (recovered.globals Global.sp (by decide))).trans aligned.sp
  · exact (congrArg (·.toNat % 4) (recovered.globals Global.ub (by decide))).trans aligned.ub

/-- The registers of a processor at power-on are aligned. -/
lemma powerOn_aligned (config : Config) : (powerOn config).Aligned := by
  have zero (code : Nat) (other : code % 32 ≠ Global.sr) : (powerOn config).regs.global code = 0 := by
    unfold Registers.global
    rw [if_neg other]
    exact Vector.getElem_replicate _
  refine ⟨?_, ?_, ?_⟩
  · exact congrArg (·.toNat % 2) (zero Global.pc (by decide))
  · exact congrArg (·.toNat % 4) (zero Global.sp (by decide))
  · exact congrArg (·.toNat % 4) (zero Global.ub (by decide))

end Cpu

/-- No action of a host breaks alignment. -/
lemma HostAction.act_aligned {c : Cpu} (action : HostAction) (aligned : c.Aligned) :
    (action.act c).Aligned := by
  cases action with
  | reset => exact Cpu.reset_aligned aligned
  | setInput line on =>
    unfold act Cpu.setInput
    dsimp only
    split
    · exact aligned.store (by decide) _
    · exact aligned.ofRegs rfl
  | setGlobal code value => exact aligned.setGlobal code value
  | setLocal code value => exact aligned.quiet fun _ _ => rfl
  | advance cycles => exact aligned.ofRegs rfl
  | timerExpired => exact Cpu.timerExpired_aligned aligned

/-! ## Aligned requests -/

/-- A property of the states of a bus that requests keep if their addresses have the alignment of their
width. -/
structure Serves {β : Type} [Bus β] (B : β → Prop) : Prop where
  readByte {b : β} (addr : Word) : B b → B ((Bus.readByte addr).run b).2
  readHalf {b : β} {addr : Word} (even : addr.toNat % 2 = 0) : B b → B ((Bus.readHalf addr).run b).2
  readWord {b : β} {addr : Word} (multiple : addr.toNat % 4 = 0) :
    B b → B ((Bus.readWord addr).run b).2
  writeByte {b : β} (addr : Word) (value : Byte) : B b → B ((Bus.writeByte addr value).run b).2
  writeHalf {b : β} {addr : Word} (even : addr.toNat % 2 = 0) (value : Half) :
    B b → B ((Bus.writeHalf addr value).run b).2
  writeWord {b : β} {addr : Word} (multiple : addr.toNat % 4 = 0) (value : Word) :
    B b → B ((Bus.writeWord addr value).run b).2
  fetch {b : β} {addr : Word} (even : addr.toNat % 2 = 0) : B b → B ((Bus.fetch addr).run b).2
  ioReadWord {b : β} (addr : Word) : B b → B ((Bus.ioReadWord (ioAddress addr)).run b).2
  ioWriteWord {b : β} (addr value : Word) :
    B b → B ((Bus.ioWriteWord (ioAddress addr) value).run b).2
  acknowledge {b : β} (line : InterruptLine) : B b → B ((Bus.acknowledge line).run b).2

variable {α β : Type} [Bus β] {B : β → Prop}

namespace Decode

/-- A decoder that keeps its place in the instruction stream even, and a property of the bus. -/
def Walks (B : β → Prop) (x : Decode β α) : Prop :=
  ∀ ⦃cursor : Cursor⦄ ⦃b : β⦄, cursor.pc.toNat % 2 = 0 → B b →
    ((x.run cursor).run b).1.2.pc.toNat % 2 = 0 ∧ B ((x.run cursor).run b).2

/-- A decoder that fetches in a row fetches from even addresses, once it stands at one. -/
lemma InStep.walks (serves : Serves B) {most : Nat} {x y : Decode β α} (steps : InStep most x y) :
    Walks B x := by
  induction steps with
  | done a move ahead =>
    intro cursor b even holds
    obtain ⟨n, passed⟩ := ahead cursor
    refine ⟨?_, holds⟩
    show (move cursor).pc.toNat % 2 = 0
    rw [passed, BitVec.toNat_add, BitVec.toNat_ofNat]
    omega
  | next rest ih =>
    intro cursor b even holds
    refine @ih _ { cursor with pc := cursor.pc + 2 } _ ?_ (serves.fetch even holds)
    show (cursor.pc + 2).toNat % 2 = 0
    bv_omega

/-- Decoding asks for even addresses only, and ends on one. -/
lemma decode_walks (serves : Serves B) (address : Word) (word : Half) (status : Status) :
    Walks B (Instruction.decode address word status : Decode β (Option Instruction)) :=
  (decode_inStep address word status).walks serves

end Decode

namespace Machine

/-- An aligned processor on a bus with a property. -/
structure Served (B : β → Prop) (m : Machine β) : Prop where
  aligned : m.cpu.Aligned
  bus : B m.bus

variable (serves : Serves B) {m : Machine β}
include serves

/-! ## Transfers and the register stack -/

/-- A load keeps the property of the bus, whatever its form and address. -/
lemma loadData_bus (form : DataForm) (addr : Word) (data : Operand) (bus : B m.bus) :
    B ((loadData form addr data).run m).2.bus := by
  cases form with
  | byte signed => exact serves.readByte addr bus
  | half signed => exact serves.readHalf (alignHalf_mod addr) bus
  | word => exact serves.readWord (alignWord_mod addr) bus
  | double => exact serves.readWord (alignWord_mod _) (serves.readWord (alignWord_mod addr) bus)
  | ioWord => exact serves.ioReadWord addr bus
  | ioDouble => exact serves.ioReadWord (addr + 4) (serves.ioReadWord addr bus)
  | stack =>
    rw [loadData_stack_run]
    split
    · exact serves.readWord (alignWord_mod addr) bus
    · exact bus

/-- A store keeps the property of the bus, whatever its form and address. -/
lemma storeData_bus (form : DataForm) (addr : Word) (data : Operand) (bus : B m.bus) :
    B ((storeData form addr data).run m).2.bus := by
  cases form with
  | byte signed => exact serves.writeByte addr _ bus
  | half signed => exact serves.writeHalf (alignHalf_mod addr) _ bus
  | word => exact serves.writeWord (alignWord_mod addr) _ bus
  | double =>
    exact serves.writeWord (alignWord_mod _) _ (serves.writeWord (alignWord_mod addr) _ bus)
  | ioWord => exact serves.ioWriteWord addr _ bus
  | ioDouble => exact serves.ioWriteWord (addr + 4) _ (serves.ioWriteWord addr _ bus)
  | stack =>
    rw [storeData_stack_run]
    split
    · exact serves.writeWord (alignWord_mod addr) _ bus
    · exact bus

/-- A spill stores at the stack pointer, which is aligned. -/
lemma spill_served (served : m.Served B) : (spill.run m).2.Served B where
  aligned := by
    refine served.aligned.setSp ?_
    have multiple := served.aligned.sp
    bv_omega
  bus := serves.writeWord (alignWord_mod m.cpu.regs.sp) _ served.bus

/-- A refill reads at the stack pointer as it is. -/
lemma refill_served (served : m.Served B) : (refill.run m).2.Served B := by
  have multiple : (m.cpu.regs.sp - 4).toNat % 4 = 0 := by
    have multiple := served.aligned.sp
    bv_omega
  exact ⟨(served.aligned.setSp multiple).quiet fun _ _ => rfl, serves.readWord multiple served.bus⟩

/-- A frame is opened with aligned requests only. -/
lemma frame_served (back length : BitVec 4) (served : m.Served B) :
    ((frame back length).run m).2.Served B := by
  have reframed : (m.cpu.reframe back length).Aligned := served.aligned.modifyStatus _
  obtain ⟨c, overflows, eq, run⟩ := m.frame_spills back length
  rw [← eq] at reframed
  have spilled := times_keeps (P := (·.Served B)) (spill_served serves) c.spillCount
    (m := ⟨c, m.bus⟩) ⟨reframed, served.bus⟩
  rw [run]
  exact ⟨(Cpu.raiseIf_aligned _ _ spilled.aligned).ofRegs rfl, spilled.bus⟩

/-- A return makes aligned requests only. -/
lemma ret_served (src : Operand) (served : m.Served B) : ((ret src).run m).2.Served B := by
  have resumed := Cpu.resume_aligned (m.cpu.read src) (m.cpu.read src.next) served.aligned
  obtain ⟨c, eq, run⟩ := m.ret_refills src
  rw [← eq] at resumed
  have refilled := times_keeps (P := (·.Served B)) (refill_served serves) c.refillCount
    (m := ⟨c, m.bus⟩) ⟨resumed, served.bus⟩
  rw [run]
  exact ⟨(Cpu.raiseIf_aligned _ _ refilled.aligned).ofRegs rfl, refilled.bus⟩

/-! ## The instruction cycle -/

omit serves in
/-- Only loads, stores, `FRAME` and `RET` use the bus. -/
lemma execute_bus {i : Instruction} (still : i.movesStack = false) (m : Machine β) :
    ((execute i).run m).2.bus = m.bus ∨
    (∃ form addressing data, i = .load form addressing data) ∨
    (∃ form addressing data, i = .store form addressing data) := by
  cases i with
  | frame | ret => cases still
  | load form addressing data => exact .inr (.inl ⟨form, addressing, data, rfl⟩)
  | store form addressing data => exact .inr (.inr ⟨form, addressing, data, rfl⟩)
  | _ => exact .inl rfl

/-- An instruction makes aligned requests and leaves the processor aligned. -/
lemma execute_served (i : Instruction) (served : m.Served B) : ((execute i).run m).2.Served B := by
  cases still : i.movesStack with
  | true =>
    cases i with
    | frame back length => exact frame_served serves back length served
    | ret src => exact ret_served serves src served
    | _ => cases still
  | false =>
    refine ⟨(m.execute_outcome i).aligned still served.aligned, ?_⟩
    obtain same | ⟨form, addressing, data, rfl⟩ | ⟨form, addressing, data, rfl⟩ :=
      execute_bus still m
    · exact same.symm ▸ served.bus
    · exact loadData_bus serves form (m.cpu.transferAddress addressing) data
        (m := ⟨m.cpu.advanceAddress (m.cpu.transferAddress addressing) addressing, m.bus⟩) served.bus
    · exact storeData_bus serves form (m.cpu.transferAddress addressing) data
        (m := ⟨m.cpu.charge form.cost, m.bus⟩) served.bus

/-- The instruction stream is fetched from even addresses. -/
lemma fetchNext_served (served : m.Served B) : (fetchNext.run m).2.Served B := by
  have decodes := Decode.decode_walks serves m.cpu.regs.pc ((Bus.fetch m.cpu.regs.pc).run m.bus).1
    m.cpu.status
  have walks := @decodes { pc := m.cpu.begin.regs.pc } _ (Cpu.begin_aligned served.aligned).pc
    (serves.fetch served.aligned.pc served.bus)
  obtain ⟨found, cursor, bus, decoded, fetch⟩ := m.fetchNext_decodes
  rw [decoded] at walks
  have next := Cpu.continueAt_aligned cursor (Cpu.begin_aligned served.aligned)
  rw [fetch]
  cases found with
  | none => exact ⟨next, walks.2⟩
  | some i =>
    dsimp only
    rw [redirect_run]
    refine ⟨?_, walks.2⟩
    dsimp only
    split
    · exact Cpu.redirect_aligned next
    · exact next

/-- A look for interrupts makes no request to memory. -/
lemma checkInterrupts_served (served : m.Served B) : (checkInterrupts.run m).2.Served B := by
  have check := m.checkInterrupts_eq
  cases due : m.cpu.interruptDue with
  | none =>
    rw [check, due]
    exact served
  | some source =>
    have taken := Cpu.takeInterrupt_aligned source served.aligned
    rw [check, due]
    cases source with
    | timer => exact ⟨taken, served.bus⟩
    | line line => exact ⟨taken, serves.acknowledge line served.bus⟩

/-- The tasks after an instruction make no request to memory. -/
lemma complete_served (wasHigh : Bool) (served : m.Served B) :
    ((complete wasHigh).run m).2.Served B := by
  have finished : (⟨m.cpu.finish wasHigh, m.bus⟩ : Machine β).Served B :=
    ⟨Cpu.finish_aligned wasHigh served.aligned, served.bus⟩
  rw [complete_run]
  split
  · exact checkInterrupts_served serves finished
  · exact finished

/-- A whole instruction cycle keeps alignment and makes aligned requests only. -/
lemma executeOne_served (served : m.Served B) : (executeOne.run m).2.Served B := by
  have next := fetchNext_served serves served
  obtain ⟨fault, c, fetched, stopped⟩ | ⟨i, c, fetched, completed⟩ := m.executeOne_cases
  · rw [fetched] at next
    rw [stopped]
    exact ⟨next.aligned.ofRegs rfl, next.bus⟩
  · rw [fetched] at next
    rw [completed]
    exact complete_served serves _ (execute_served serves i next)

/-! ## Runs -/

/-- What one move keeps. -/
lemma move_served (move : Move) (served : m.Served B) : (m.move move).Served B := by
  cases move with
  | host action => exact ⟨action.act_aligned served.aligned, served.bus⟩
  | openSlice budget =>
    exact checkInterrupts_served serves ⟨served.aligned.ofRegs rfl, served.bus⟩
  | instruction => exact executeOne_served serves served
  | closeSlice => exact ⟨served.aligned.ofRegs rfl, served.bus⟩

/-- Whatever a bus keeps under aligned requests, it keeps under any moves of a machine that starts
aligned. -/
theorem reaches_served {m' : Machine β} (reaches : m.Reaches m') (served : m.Served B) :
    m'.Served B := by
  obtain ⟨moves, rfl⟩ := reaches
  induction moves generalizing m with
  | nil => exact served
  | cons first moves ih => exact ih (move_served serves first served)

end Machine

end E1Machine
