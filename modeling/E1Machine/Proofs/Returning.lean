import E1Machine.Bus.Flat
import E1Machine.Proofs.Frames
import E1Machine.Proofs.Moves
import E1Machine.Proofs.Outcome

/-!
# Entry and return

A trap, an interrupt, an exception and a call all leave the return address and the status register in the
first two registers of the new frame, where the supervisor flag travels in bit 0 of the address. A return
through these registers puts the processor back: the status register up to the instruction length, the
program counter, the stack pointer, and the local registers that the entry has not filled.

The privilege check of the return never fails there, since an entry leaves neither supervisor state nor
the interrupt lock, and nothing is refilled while the frame of the caller lies above the stack pointer.

Main statement: `Machine.return_undoes_entry`.
-/

namespace E1Machine

/-- A way to open a frame that a return closes. -/
inductive FrameEntry where
  /-- A trap instruction. -/
  | trap (number : Nat)
  /-- An interrupt. -/
  | interrupt (source : InterruptSource)
  /-- An exception. -/
  | exception (exception : Exception)
  /-- A call, with the new frame at local register `code`. -/
  | call (code : Nat) (src : Operand) (addend : Word)
  deriving DecidableEq, Repr

/-- The local register of the current frame at which the new frame starts. -/
def FrameEntry.base (s : Status) : FrameEntry → Nat
  | call code _ _ => code
  | trap _ | interrupt _ | exception _ => s.frameLength

/-- Frames start at slots modulo the size of the bank, however the frame pointer wraps. -/
lemma localSlot_add (k code : Nat) (fp : BitVec 7) :
    localSlot k (fp + BitVec.ofNat 7 code).toNat = localSlot (code + k) fp.toNat := by
  apply Fin.ext
  simp only [localSlot, Fin.val_ofNat, BitVec.toNat_add, BitVec.toNat_ofNat]
  omega

/-- An even address is not rounded twice. -/
lemma alignHalf_alignHalf (w : Word) : alignHalf (alignHalf w) = alignHalf w := by
  apply BitVec.eq_of_toNat_eq
  rw [toNat_alignHalf, toNat_alignHalf]
  omega

namespace Cpu

/-- Opens a frame. -/
def enterBy (c : Cpu) : FrameEntry → Cpu
  | .trap number => c.enterTrap number
  | .interrupt source => c.enterInterrupt source
  | .exception exception => c.raise exception
  | .call code src addend => c.call code src addend

/-! ## What an entry leaves for the return -/

/-- The frame of `d` is one from which a return leads back to `c`. -/
structure Returnable (c : Cpu) (base : Nat) (d : Cpu) : Prop where
  address : d.read ⟨.locals, 0⟩ = c.returnPc
  saved : ∃ n, d.read ⟨.locals, 1⟩ = (c.noteLength n).status.bits
  supervisor : c.status.s = true → d.status.s = true
  locked : c.status.l = true → d.status.l = true
  globals (code : Nat) (notPc : code % 32 ≠ Global.pc) (notSr : code % 32 ≠ Global.sr) :
    d.regs.global code = c.regs.global code
  locals (slot : Fin 64) (notAddress : slot ≠ localSlot base c.status.fp.toNat)
    (notSaved : slot ≠ localSlot (base + 1) c.status.fp.toNat) :
    d.regs.localAt slot = c.regs.localAt slot

/-- What is filled in at local register `base` are the first registers of the frame that starts there. -/
lemma read_filled {c d : Cpu} {base k : Nat} {values : List Word}
    (fp : d.status.fp = c.status.fp + BitVec.ofNat 7 base)
    (filled : Registers.Filled c.status.fp.toNat base values c.regs d.regs)
    (inside : k < values.length) : d.read ⟨.locals, k⟩ = values[k] := by
  have register : d.read ⟨.locals, k⟩ = d.regs.localAt (localSlot (base + k) c.status.fp.toNat) := by
    rw [← localSlot_add, ← fp]
    rfl
  exact register.trans (filled.holds k inside)

/-- A frame that holds the return address and the status register leads back. -/
lemma Returnable.ofFilled {c d : Cpu} {base n : Nat}
    (fp : d.status.fp = c.status.fp + BitVec.ofNat 7 base)
    (filled : Registers.Filled c.status.fp.toNat base [c.returnPc, (c.noteLength n).status.bits]
      c.regs d.regs)
    (supervisor : c.status.s = true → d.status.s = true)
    (locked : c.status.l = true → d.status.l = true)
    (globals : ∀ code, code % 32 ≠ Global.pc → code % 32 ≠ Global.sr →
      d.regs.global code = c.regs.global code) : Returnable c base d := by
  refine ⟨?_, ⟨n, ?_⟩, supervisor, locked, globals, fun slot notAddress notSaved => ?_⟩
  · exact read_filled (k := 0) fp filled (by simp)
  · exact read_filled (k := 1) fp filled (by simp)
  · refine filled.others slot fun k small => ?_
    obtain rfl | rfl : k = 0 ∨ k = 1 := by
      simp only [List.length_cons, List.length_nil] at small
      omega
    · exact notAddress.symm
    · exact notSaved.symm

/-- The frame of a handler leads back. -/
lemma enterFrame_returnable (c : Cpu) (cause : EntryCause) (vector : Word) (length : BitVec 4) :
    Returnable c c.status.frameLength (c.enterFrame cause vector length) := by
  obtain ⟨e, enters, stacked, status, -⟩ := c.enterFrame_frame cause vector length
  have filled := enters.filled
  rw [enters.frame, stacked] at filled
  refine .ofFilled (n := c.length) (enters.fp.trans enters.frame) ⟨fun k inside => ?_,
    fun slot outside => ?_⟩ (fun _ => by rw [status]) (fun _ => by rw [status]) enters.globals
  · rw [← localSlot_add, ← filled.holds k inside, Nat.zero_add]
  · refine filled.others slot fun k small => ?_
    rw [Nat.zero_add, localSlot_add]
    exact outside k small

/-- What a call leaves in the register banks. -/
lemma call_regs (c : Cpu) (code : Nat) (src : Operand) (addend : Word) :
    (c.call code src addend).status =
        { (c.noteLength c.length).status with
          fp := c.status.fp + BitVec.ofNat 7 code, fl := 6, m := false } ∧
      Registers.Filled c.status.fp.toNat code [c.returnPc, (c.noteLength c.length).status.bits]
        c.regs (c.call code src addend).regs ∧
      ∀ code', code' % 32 ≠ Global.pc → code' % 32 ≠ Global.sr →
        (c.call code src addend).regs.global code' = c.regs.global code' := by
  obtain ⟨locals, changed⟩ := fillFrame_changes
    [(c.noteLength c.length).returnPc, (c.noteLength c.length).status.bits] (c.noteLength c.length)
    code
  have filled := (c.noteLength c.length).fillFrame_filled
    [(c.noteLength c.length).returnPc, (c.noteLength c.length).status.bits] code (by simp)
  unfold call
  dsimp only
  rw [changed] at filled ⊢
  have status (target : Word) (d : Cpu) : (((d.jump target).block 2).charge .controlTransfer).status =
    d.status := d.jump_status target
  refine ⟨status _ _, filled.congr (fun _ => rfl) fun slot => ?_, fun code' notPc notSr => ?_⟩
  · exact Registers.localAt_setGlobal _ _ _ _
  · exact (Registers.global_setPc _ _ notPc).trans (Registers.global_setStatus c.regs _ notSr)

/-- The frame of a call leads back. -/
lemma call_returnable (c : Cpu) (code : Nat) (src : Operand) (addend : Word) :
    Returnable c code (c.call code src addend) := by
  obtain ⟨status, filled, globals⟩ := c.call_regs code src addend
  refine .ofFilled (n := c.length) ?_ filled ?_ ?_ globals
  · rw [status]
  · rw [status]
    exact id
  · rw [status]
    exact id

/-- Every frame that a return closes leads back. -/
lemma enterBy_returnable (c : Cpu) (how : FrameEntry) :
    Returnable c (how.base c.status) (c.enterBy how) := by
  cases how with
  | trap number => exact c.enterFrame_returnable _ _ _
  | interrupt source => exact c.enterFrame_returnable _ _ _
  | exception exception => exact c.enterFrame_returnable _ _ _
  | call code src addend => exact c.call_returnable code src addend

/-! ## The return -/

/-- What a return to `c` restores, which is all but the length of the last instruction and the two
registers that the entry has filled. -/
structure Restores (c : Cpu) (base : Nat) (after : Cpu) : Prop where
  pc : after.regs.pc = alignHalf c.regs.pc
  status : after.status = { c.status with ilc := 0 }
  globals (code : Nat) (notPc : code % 32 ≠ Global.pc) (notSr : code % 32 ≠ Global.sr) :
    after.regs.global code = c.regs.global code
  locals (slot : Fin 64) (notAddress : slot ≠ localSlot base c.status.fp.toNat)
    (notSaved : slot ≠ localSlot (base + 1) c.status.fp.toNat) :
    after.regs.localAt slot = c.regs.localAt slot

/-- Bit 0 of the return address is the supervisor flag. -/
lemma returnPc_bit (c : Cpu) : c.returnPc.getLsbD 0 = c.status.s := by
  unfold returnPc
  rw [BitVec.getLsbD_append]
  simp

/-- The return address is that of the next instruction. -/
lemma alignHalf_returnPc (c : Cpu) : alignHalf c.returnPc = alignHalf c.regs.pc := by
  unfold alignHalf returnPc
  congr 1
  apply BitVec.eq_of_getLsbD_eq
  intro i small
  rw [BitVec.getLsbD_extractLsb', BitVec.getLsbD_extractLsb', BitVec.getLsbD_append]
  simp [Nat.add_comm 1 i, small]

/-- Resuming sets the program counter and the status register, and no other register. -/
lemma resume_regs (c : Cpu) (address saved : Word) : (c.resume address saved).regs =
    { c.regs.setPc address with
      status := { Status.ofBits saved with s := address.getLsbD 0, ilc := 0 } } := rfl

/-- Resuming at what an entry has stacked restores the processor. -/
lemma Returnable.resume {c d : Cpu} {base : Nat} (returnable : Returnable c base d) :
    Restores c base (d.resume (d.read ⟨.locals, 0⟩) (d.read ⟨.locals, 1⟩)) := by
  obtain ⟨n, saved⟩ := returnable.saved
  have regs := d.resume_regs c.returnPc (c.noteLength n).status.bits
  rw [Status.ofBits_bits, c.returnPc_bit] at regs
  rw [returnable.address, saved]
  refine ⟨?_, ?_, fun code notPc notSr => ?_, fun slot notAddress notSaved => ?_⟩
  · rw [regs]
    refine (Registers.global_setStatus _ _ (by decide)).trans ?_
    exact (Registers.pc_setPc _ _).trans c.alignHalf_returnPc
  · exact congrArg Registers.status regs
  · rw [regs]
    exact (Registers.global_setStatus _ _ notSr).trans
      ((Registers.global_setPc _ _ notPc).trans (returnable.globals code notPc notSr))
  · rw [regs]
    exact (Registers.localAt_setGlobal _ _ _ _).trans (returnable.locals slot notAddress notSaved)

/-- No entry leaves supervisor state or the interrupt lock, so the return breaks no privilege. -/
lemma Returnable.allowed {c d : Cpu} {base : Nat} (returnable : Returnable c base d) :
    breaksPrivilege d.status { c.status with ilc := 0 } = false := by
  have supervisor := returnable.supervisor
  have locked := returnable.locked
  unfold breaksPrivilege
  cases s : c.status.s with
  | true => simp [supervisor s]
  | false =>
    cases l : c.status.l with
    | true => simp [locked l]
    | false => simp

end Cpu

namespace Machine

variable {β : Type} [Bus β]

/-- A return that neither refills nor breaks privilege resumes, and that is all. -/
lemma ret_resumes (m : Machine β) (src : Operand) {resumed : Cpu}
    (resumes : m.cpu.resume (m.cpu.read src) (m.cpu.read src.next) = resumed)
    (above : 0 ≤ (resumed.status.fp - stackSlot resumed.regs.sp).toInt)
    (allowed : Cpu.breaksPrivilege m.cpu.status resumed.status = false) :
    (ret src).run m = ((), ⟨resumed.charge .controlTransfer, m.bus⟩) := by
  obtain ⟨c, eq, run⟩ := m.ret_refills src
  cases eq.trans resumes
  have refills : resumed.refillCount = 0 := by
    unfold Cpu.refillCount
    omega
  rw [refills] at run
  refine run.trans ?_
  show ((), (⟨(resumed.raiseIf (Cpu.breaksPrivilege m.cpu.status resumed.status) .privilege).charge
    .controlTransfer, m.bus⟩ : Machine β)) = _
  rw [allowed]
  rfl

/-- What a fetch leaves in the program counter is even. -/
lemma fetchNext_pc {b m : Machine β} {i : Instruction} (fetched : fetchNext.run b = (.ok i, m)) :
    alignHalf m.cpu.regs.pc = m.cpu.regs.pc := by
  have even (r : Registers) (value : Word) : alignHalf (r.setPc value).pc = (r.setPc value).pc := by
    rw [Registers.pc_setPc, alignHalf_alignHalf]
  obtain ⟨cursor, bus, rfl⟩ := b.fetchNext_ok fetched
  dsimp only
  split
  · rw [Cpu.redirect_eq]
    cases (b.cpu.begin.continueAt cursor).delay.target with
    | none => exact even _ _
    | some target => exact even _ _
  · exact even _ _

/-- A return from the frame that an entry has opened undoes it, uses no memory and enters no handler,
where the frame pointer lies above the stack pointer. The program counter comes back exactly if it is
even, as it is after every fetch. -/
theorem return_undoes_entry (m : Machine β) (how : FrameEntry)
    (above : 0 ≤ (m.cpu.status.fp - stackSlot m.cpu.regs.sp).toInt) :
    let entered := m.cpu.enterBy how
    let after := ((ret ⟨.locals, 0⟩).run ⟨entered, m.bus⟩).2
    Cpu.Restores m.cpu (how.base m.cpu.status) after.cpu ∧
      after.bus = m.bus ∧ after.cpu.entries = entered.entries ∧
      ∀ b i, fetchNext.run b = (.ok i, m) → after.cpu.regs.pc = m.cpu.regs.pc := by
  intro entered after
  have returnable := m.cpu.enterBy_returnable how
  have restores := returnable.resume
  -- The resumed processor is a variable, so that the entry under it is not computed.
  obtain ⟨resumed, eq⟩ : ∃ resumed, entered.resume (entered.read ⟨.locals, 0⟩)
    (entered.read ⟨.locals, 1⟩) = resumed := ⟨_, rfl⟩
  rw [show Cpu.resume _ _ _ = resumed from eq] at restores
  have sp : resumed.regs.sp = m.cpu.regs.sp := restores.globals Global.sp (by decide) (by decide)
  have run : (ret ⟨.locals, 0⟩).run (⟨entered, m.bus⟩ : Machine β) =
      ((), ⟨resumed.charge .controlTransfer, m.bus⟩) := by
    refine ret_resumes ⟨entered, m.bus⟩ ⟨.locals, 0⟩ eq ?_ ?_
    · rw [restores.status, sp]
      exact above
    · rw [restores.status]
      exact returnable.allowed
  have ended : after = ⟨resumed.charge .controlTransfer, m.bus⟩ := congrArg Prod.snd run
  rw [ended]
  refine ⟨⟨restores.pc, restores.status, restores.globals, restores.locals⟩, rfl, ?_, ?_⟩
  · rw [← eq]
    rfl
  · intro b i fetched
    exact restores.pc.trans (fetchNext_pc fetched)

/-- A call from the state that a reset leaves is undone. -/
theorem call_undone_after_reset :
    let m := (powerOn Variant.e132t.config ({} : FlatMemory)).session
      [.host .reset, .host (.setGlobal Global.pc 0x1000)]
    let entered := m.cpu.enterBy (.call 2 ⟨.globals, 1⟩ 0x2000)
    let after := ((ret ⟨.locals, 0⟩).run ⟨entered, m.bus⟩).2
    0 ≤ (m.cpu.status.fp - stackSlot m.cpu.regs.sp).toInt ∧
      entered.regs.pc = 0x2000 ∧ after.cpu.regs.pc = 0x1000 ∧
      after.cpu.status = { m.cpu.status with ilc := 0 } := by
  intro m entered after
  have above : 0 ≤ (m.cpu.status.fp - stackSlot m.cpu.regs.sp).toInt := by decide +kernel
  have called : entered.regs.pc = 0x2000 := by decide +kernel
  have start : alignHalf m.cpu.regs.pc = 0x1000 := by decide +kernel
  obtain ⟨restores, -⟩ := return_undoes_entry m (.call 2 ⟨.globals, 1⟩ 0x2000) above
  exact ⟨above, called, restores.pc.trans start, restores.status⟩

end Machine

end E1Machine
