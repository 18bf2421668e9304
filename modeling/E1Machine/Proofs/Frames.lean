import E1Machine.Proofs.Changes

/-!
# Frames of entries

An entry opens a frame after the current one and fills its first registers. Slots count modulo the size
of the bank, so a frame can wrap around; what is filled stays apart as long as it is no longer than the
bank. `Registers.Filled` says which local registers hold the values and that no others change, and
`Cpu.EntersFrame` what an entry leaves in the register banks and in the log.

Main statements: `Cpu.enterFrame_frame` and `Cpu.enterEmulation_frame`, the frames of handlers and of
emulation routines, with the status register and the program counter with which these start.
-/

namespace E1Machine

/-- Two codes name the same slot only if they agree modulo the size of the bank. -/
lemma localSlot_inj {a b fp : Nat} (same : localSlot a fp = localSlot b fp) : a % 64 = b % 64 := by
  have values := congrArg Fin.val same
  simp only [localSlot, Fin.val_ofNat] at values
  omega

/-- The registers from `code` on of the frame that starts at `fp` hold the values, and every other local
register is as before. -/
structure Registers.Filled (fp code : Nat) (values : List Word) (before after : Registers) : Prop where
  holds (k : Nat) (inside : k < values.length) :
    after.localAt (localSlot (code + k) fp) = values[k]
  others (slot : Fin 64) (outside : ∀ k < values.length, localSlot (code + k) fp ≠ slot) :
    after.localAt slot = before.localAt slot

namespace Registers.Filled

variable {fp code : Nat} {values : List Word} {before after after' : Registers}

/-- What is filled depends on nothing but the local registers. -/
lemma congr {before' : Registers} (filled : Filled fp code values before after)
    (old : ∀ slot, before.localAt slot = before'.localAt slot)
    (new : ∀ slot, after'.localAt slot = after.localAt slot) :
    Filled fp code values before' after' where
  holds k inside := (new _).trans (filled.holds k inside)
  others slot outside := (new slot).trans ((filled.others slot outside).trans (old slot))

/-- A filled frame determines all local registers. -/
lemma unique (filled : Filled fp code values before after)
    (filled' : Filled fp code values before after') (slot : Fin 64) :
    after'.localAt slot = after.localAt slot := by
  by_cases inside : ∃ k < values.length, localSlot (code + k) fp = slot
  · obtain ⟨k, inside, rfl⟩ := inside
    exact (filled'.holds k inside).trans (filled.holds k inside).symm
  · have outside (k : Nat) (small : k < values.length) : localSlot (code + k) fp ≠ slot :=
      fun eq => inside ⟨k, small, eq⟩
    exact (filled'.others slot outside).trans (filled.others slot outside).symm

/-- The registers of the frame are read as the values. -/
lemma read {fp : BitVec 7} {c : Cpu} (filled : Filled fp.toNat 0 values before c.regs) (current : c.status.fp = fp)
    {k : Nat} {value : Word} (found : values[k]? = some value) : c.read ⟨.locals, k⟩ = value := by
  obtain ⟨inside, eq⟩ := List.getElem?_eq_some_iff.mp found
  have holds := filled.holds k inside
  rw [← current, Nat.zero_add] at holds
  exact holds.trans eq

end Registers.Filled

namespace Cpu

/-- An entry makes the log of entries longer. -/
lemma push_ne (entries : Array Entry) (e : Entry) : entries.push e ≠ entries := fun same => by
  have sizes := congrArg Array.size same
  rw [Array.size_push] at sizes
  omega

/-- Filling a frame leaves the values in consecutive registers, if the bank has room for them. -/
lemma fillFrame_filled (values : List Word) : ∀ (c : Cpu) (code : Nat), values.length ≤ 64 →
    Registers.Filled c.status.fp.toNat code values c.regs (c.fillFrame code values).regs := by
  induction values with
  | nil => exact fun c _ _ => ⟨fun _ inside => absurd inside (Nat.not_lt_zero _), fun _ _ => rfl⟩
  | cons value values ih =>
    intro c code fits
    have rest := ih (c.modifyRegs (·.setInFrame code value)) (code + 1) (Nat.le_of_succ_le fits)
    have written (slot : Fin 64) : (c.modifyRegs (·.setInFrame code value)).regs.localAt slot =
        if localSlot code c.status.fp.toNat = slot then value else c.regs.localAt slot :=
      Registers.localAt_setLocalAt _ _ _ _
    constructor
    · intro k inside
      cases k with
      | zero =>
        -- The registers filled later are less than the bank apart from the first.
        refine (rest.others _ fun k small same => ?_).trans ((written _).trans (if_pos rfl))
        have apart := localSlot_inj same
        simp only [List.length_cons] at fits
        omega
      | succ k =>
        rw [← Nat.succ_add_eq_add_succ]
        exact rest.holds k (Nat.lt_of_succ_lt_succ inside)
    · intro slot outside
      refine (rest.others slot fun k small => ?_).trans ((written slot).trans (if_neg ?_))
      · rw [Nat.add_assoc, Nat.add_comm 1 k]
        exact outside (k + 1) (Nat.succ_lt_succ small)
      · exact outside 0 (Nat.zero_lt_succ _)

/-- An entry noted as `e` leads from a processor to another: it opens the next frame and fills it, and
no global register changes but the program counter and the status register. -/
structure EntersFrame (c : Cpu) (e : Entry) (d : Cpu) : Prop where
  entries : d.entries = c.entries.push e
  frame : e.frame = c.status.fp + BitVec.ofNat 7 c.status.frameLength
  fp : d.status.fp = e.frame
  filled : Registers.Filled e.frame.toNat 0 e.stacked c.regs d.regs
  globals (code : Nat) (notPc : code % 32 ≠ Global.pc) (notSr : code % 32 ≠ Global.sr) :
    d.regs.global code = c.regs.global code

namespace EntersFrame

variable {c d : Cpu} {e : Entry} (enters : EntersFrame c e d)
include enters

/-- A change of flags after an entry leaves its frame. -/
lemma modifyStatus (f : Status → Status) (keeps : ∀ s, (f s).fp = s.fp) :
    EntersFrame c e (d.modifyStatus f) where
  entries := enters.entries
  frame := enters.frame
  fp := (keeps d.status).trans enters.fp
  filled := enters.filled.congr (fun _ => rfl) fun _ => rfl
  globals code notPc notSr :=
    (Registers.global_setStatus d.regs _ notSr).trans (enters.globals code notPc notSr)

/-- A jump after an entry leaves its frame. -/
lemma jump (target : Word) : EntersFrame c e (d.jump target) where
  entries := enters.entries
  frame := enters.frame
  fp := (congrArg Status.fp (d.jump_status target)).trans enters.fp
  filled := enters.filled.congr (fun _ => rfl) fun _ => Registers.localAt_setGlobal _ _ _ _
  globals code notPc notSr :=
    (Registers.global_setPc _ _ notPc).trans (enters.globals code notPc notSr)

/-- Spending cycles after an entry leaves its frame. -/
lemma spend (n : Nat) : EntersFrame c e (d.spend n) :=
  ⟨enters.entries, enters.frame, enters.fp, enters.filled, enters.globals⟩

/-- The first registers of the new frame hold what was stacked. -/
lemma read {k : Nat} {value : Word} (stacked : e.stacked[k]? = some value) :
    d.read ⟨.locals, k⟩ = value := by
  exact enters.filled.read enters.fp stacked

/-- All other local registers are as before. -/
lemma localAt {slot : Fin 64} (outside : ∀ k < e.stacked.length, d.regs.slot k ≠ slot) :
    d.regs.localAt slot = c.regs.localAt slot := by
  refine enters.filled.others slot fun k inside => ?_
  rw [← enters.fp, Nat.zero_add]
  exact outside k inside

end EntersFrame

/-- Words are stacked in the next frame, after the length of the instruction is noted. -/
lemma stackEntry_frame (c : Cpu) (n : Nat) (cause : EntryCause) (length : BitVec 4)
    (stacked : List Word) (fits : stacked.length ≤ 64) :
    ∃ e : Entry, EntersFrame c e ((c.noteLength n).stackEntry cause length stacked) ∧
      e.stacked = stacked ∧
      ((c.noteLength n).stackEntry cause length stacked).status =
        (c.noteLength n).status.openFrame length := by
  -- With the frame opened the processor is a variable, so that the fill is not computed.
  obtain ⟨opened, eq⟩ : ∃ opened, opened = (c.noteLength n).modifyStatus (·.openFrame length) :=
    ⟨_, rfl⟩
  obtain ⟨locals, changed⟩ := fillFrame_changes stacked opened 0
  have filled := fillFrame_filled stacked opened 0 fits
  unfold stackEntry
  rw [← eq]
  dsimp only
  rw [changed] at filled ⊢
  refine ⟨⟨cause, opened.status.fp, stacked, opened.delay.target⟩, ⟨?_, ?_, rfl, ?_, ?_⟩, rfl, ?_⟩
  · rw [eq]
    rfl
  · rw [eq]
    rfl
  · exact filled.congr (fun _ => by rw [eq]; rfl) fun _ => rfl
  · intro code notPc notSr
    rw [eq]
    exact Registers.global_setStatus c.regs _ notSr
  · rw [eq]
    rfl

/-- Noting the length of an instruction does not move the address that a return goes to. -/
lemma returnPc_noteLength (c : Cpu) (n : Nat) : (c.noteLength n).returnPc = c.returnPc := by
  have pc : (c.noteLength n).regs.pc = c.regs.pc := Registers.global_setStatus _ _ (by decide)
  unfold returnPc
  rw [pc]
  rfl

/-- A handler starts at its vector in supervisor state with interrupts locked. Its frame holds the return
address and the status register. -/
lemma enterFrame_frame (c : Cpu) (cause : EntryCause) (vector : Word) (length : BitVec 4) :
    ∃ e : Entry, EntersFrame c e (c.enterFrame cause vector length) ∧
      e.stacked = [c.returnPc, (c.noteLength c.length).status.bits] ∧
      (c.enterFrame cause vector length).status =
        { (c.noteLength c.length).status.openFrame length with
          m := false, t := false, l := true, s := true, i := c.status.i || cause.isInterrupt } ∧
      (c.enterFrame cause vector length).regs.pc = alignHalf vector := by
  obtain ⟨e, enters, stacked, status⟩ := c.stackEntry_frame c.length cause length
    [(c.noteLength c.length).returnPc, (c.noteLength c.length).status.bits] (by simp)
  rw [returnPc_noteLength] at stacked
  unfold enterFrame
  dsimp only
  generalize (c.noteLength c.length).stackEntry _ _ _ = d at enters status
  refine ⟨e, ((enters.modifyStatus _ ?_).jump vector).spend _, stacked, ?_, Registers.pc_setPc _ _⟩
  · exact fun _ => rfl
  · refine (jump_status _ vector).trans ?_
    show { d.status with
      m := false, t := false, l := true, s := true, i := d.status.i || cause.isInterrupt } = _
    rw [status]
    rfl

/-- An exception opens a frame and stacks the return address and the status register there. -/
lemma raise_frame (c : Cpu) (exception : Exception) : ∃ e : Entry,
    EntersFrame c e (c.raise exception) ∧
      e.stacked = [c.returnPc, (c.noteLength c.length).status.bits] := by
  obtain ⟨e, enters, stacked, -⟩ := c.enterFrame_frame (.exception exception)
    (c.entry.vector exception.trapNumber) 2
  exact ⟨e, enters, stacked⟩

/-- An emulation routine starts in the state of the emulated program, with interrupts locked. Its frame
also holds the operands. -/
lemma enterEmulation_frame (c : Cpu) (byte : Byte) (dst src : Nat) :
    ∃ e : Entry, EntersFrame c e (c.enterEmulation byte dst src) ∧
      e.stacked = [c.stackAddress dst, c.regs.inFrame src, c.regs.inFrame (src + 1), c.returnPc,
        (c.noteLength 1).status.bits] ∧
      (c.enterEmulation byte dst src).status =
        { (c.noteLength 1).status.openFrame 6 with m := false, t := false, l := true } ∧
      (c.enterEmulation byte dst src).regs.pc = alignHalf (c.entry.emulation byte) := by
  obtain ⟨e, enters, stacked, status⟩ := c.stackEntry_frame 1 (.emulation byte) 6
    [(c.noteLength 1).stackAddress dst, (c.noteLength 1).regs.inFrame src,
      (c.noteLength 1).regs.inFrame (src + 1), (c.noteLength 1).returnPc,
      (c.noteLength 1).status.bits] (by simp)
  rw [returnPc_noteLength] at stacked
  have sp : (c.noteLength 1).regs.sp = c.regs.sp := Registers.global_setStatus _ _ (by decide)
  unfold enterEmulation
  dsimp only
  generalize (c.noteLength 1).stackEntry _ _ _ = d at enters status
  refine ⟨e, ((enters.modifyStatus _ ?_).jump _).spend _, stacked.trans ?_, ?_,
    Registers.pc_setPc _ _⟩
  · exact fun _ => rfl
  · unfold stackAddress
    rw [sp]
    rfl
  · rw [← status]
    exact jump_status _ _

end Cpu

end E1Machine
