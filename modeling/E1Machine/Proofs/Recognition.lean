import E1Machine.Bus.Flat
import E1Machine.Proofs.Slices

/-!
# No interrupt is lost

A slice looks for interrupts only when it opens and when the lockout has just run out, and lets the
lockout run below zero afterwards. An interrupt that could be taken is still never left waiting: each
step that could make one possible, by unlocking interrupts or enabling a source, holds the lockout up so
that it runs out once more.
-/

namespace E1Machine

namespace Cpu

/-- No interrupt waits that could be taken: they are held back or locked, or no source that is enabled
asks for one. -/
def Recognized (c : Cpu) : Prop :=
  0 < c.lockout ∨ c.status.l = true ∨
    resolveInterrupt (c.regs.global Global.isr) (c.regs.global Global.fcr) c.timer.pending = none

/-- An interrupt is due exactly if one waits that could be taken. -/
lemma recognized_iff (c : Cpu) : c.Recognized ↔ c.interruptDue = none := by
  unfold Recognized interruptDue
  by_cases held : 0 < c.lockout
  · simp [held]
  · cases locked : c.status.l with
    | true => simp
    | false => simp [held]

/-- Nothing becomes possible if the lockout is not shortened, the lock not taken off, and the requests
and their control are as before. -/
lemma Recognized.mono {c d : Cpu} (r : c.Recognized) (longer : c.lockout ≤ d.lockout)
    (locked : c.status.l = true → d.status.l = true)
    (lines : d.regs.global Global.isr = c.regs.global Global.isr)
    (control : d.regs.global Global.fcr = c.regs.global Global.fcr)
    (timer : d.timer.pending = c.timer.pending) : d.Recognized := by
  obtain held | lock | quiet := r
  · exact .inl (Int.lt_of_lt_of_le held longer)
  · exact .inr (.inl (locked lock))
  · refine .inr (.inr ?_)
    rw [lines, control, timer]
    exact quiet

/-- Scheduling the timer's callback makes nothing pending. -/
lemma schedule_pending (t : Timer) (now : Nat) (tpr tcr fcr : Word) :
    (t.schedule now tpr tcr fcr).pending = t.pending := by
  obtain ⟨deadline, eq⟩ := t.schedule_changes now tpr tcr fcr
  rw [eq]

/-- Replacing a register that no interrupt depends on makes nothing possible. -/
lemma Recognized.store {c : Cpu} (r : c.Recognized) {code : Nat} (value : Word)
    (status : code % 32 ≠ Global.sr) (lines : code % 32 ≠ Global.isr)
    (control : code % 32 ≠ Global.fcr) : (c.store code value).Recognized := by
  have other {target : Nat} (ne : code % 32 ≠ target % 32) :
      (c.regs.setGlobal code value).global target = c.regs.global target := by
    rw [Registers.global_setGlobal, if_neg ne]
  refine r.mono (Int.le_refl _) ?_ (other lines) (other control) rfl
  intro locked
  show (c.regs.setGlobal code value).status.l = true
  rw [Registers.status_setGlobal _ _ _ status]
  exact locked

/-- A change of the status register that leaves the lock alone makes nothing possible. -/
lemma Recognized.modifyStatus {c : Cpu} (r : c.Recognized) {f : Status → Status}
    (lock : (f c.status).l = c.status.l) : (c.modifyStatus f).Recognized := by
  refine r.mono (Int.le_refl _) ?_ (Registers.global_setStatus _ _ (by decide))
    (Registers.global_setStatus _ _ (by decide)) rfl
  intro locked
  exact lock.trans locked

/-- Scheduling a callback leaves no interrupt waiting. -/
lemma Recognized.reschedule {c : Cpu} (r : c.Recognized) : c.reschedule.Recognized :=
  r.mono (Int.le_refl _) id rfl rfl (schedule_pending ..)

/-- Applying a prescaler value leaves no interrupt waiting. -/
lemma Recognized.applyPrescale {c : Cpu} (r : c.Recognized) (tpr : Word) :
    (c.applyPrescale tpr).Recognized := by
  have prescaled : Recognized { c with timer := c.timer.setPrescale c.cycles tpr } :=
    r.mono (Int.le_refl _) id rfl rfl rfl
  exact prescaled.store _ (by decide) (by decide) (by decide)

/-- While interrupts are held back none waits. -/
lemma recognized_block (c : Cpu) {n : Int} (positive : 0 < n) : (c.block n).Recognized :=
  .inl (Int.lt_of_lt_of_le positive (Int.le_max_right _ _))

/-- A write of a global register makes nothing possible: the registers that could do so block. -/
lemma Recognized.setGlobal {c : Cpu} (r : c.Recognized) (code : Nat) (value : Word) :
    (c.setGlobal code value).Recognized := by
  unfold Cpu.setGlobal
  -- The writes of the status, the compare and the control register are those that block.
  split
  · exact r.store _ (by decide) (by decide) (by decide)
  · exact recognized_block _ (by decide)
  · exact r.store _ (by decide) (by decide) (by decide)
  · exact r.store _ (by decide) (by decide) (by decide)
  · unfold writePrescaler
    split
    · exact (r.store value (by decide) (by decide) (by decide)).reschedule
    · exact (r.applyPrescale value).reschedule
  · unfold writeCompare
    split
    · exact r
    · exact recognized_block _ (by decide)
  · unfold writeTicks
    have stored : (c.store Global.tr value).Recognized :=
      r.store value (by decide) (by decide) (by decide)
    exact (stored.mono (d := { (c.store Global.tr value) with
      timer := (c.store Global.tr value).timer.rebase (c.store Global.tr value).cycles value })
      (Int.le_refl _) id rfl rfl rfl).reschedule
  · exact r
  · exact recognized_block _ (by decide)
  · unfold writeMemoryControl
    have stored : (c.store Global.mcr value).Recognized :=
      r.store value (by decide) (by decide) (by decide)
    dsimp only
    split
    · exact stored.mono (Int.le_refl _) id rfl rfl rfl
    · exact stored.mono (Int.le_refl _) id rfl rfl rfl
  · next _ status _ _ _ _ _ lines control _ => exact r.store value status lines control

/-- Nothing is possible at the start of a handler. -/
lemma Enters.recognized {c d : Cpu} (enters : Enters c d) : d.Recognized := by
  obtain ⟨regs, lastPc, n, e, -, locked, -, rfl⟩ := enters
  exact .inr (.inl locked)

/-- No elementary step makes an interrupt possible. -/
theorem recognized_invariant : Invariant Recognized where
  begin r := r.store _ (by decide) (by decide) (by decide)
  continueAt _ r := r.store _ (by decide) (by decide) (by decide)
  redirect {c} r := by
    rw [redirect_eq]
    cases c.delay.target with
    | none => exact r
    | some target =>
      have moved : (c.store Global.pc (alignHalf target)).Recognized :=
        r.store _ (by decide) (by decide) (by decide)
      exact moved.mono (Int.le_refl _) id rfl rfl rfl
  modifyStatus {c f} keeps r := by
    refine r.modifyStatus ?_
    rw [keeps c.status]
  setLocalAt _ _ r := r.mono (Int.le_refl _) id rfl rfl rfl
  setSp _ r := r.store _ (by decide) (by decide) (by decide)
  setGlobal code value r := r.setGlobal code value
  jump _ r := r.store _ (by decide) (by decide) (by decide)
  spend _ r := r
  block _ r := r.mono (Int.le_max_left _ _) id rfl rfl rfl
  report _ r := r
  enterTrap {c} number _ := (c.enterTrap_enters number).recognized
  raise {c} exception _ := (c.raise_enters exception).recognized
  enterEmulation {c} byte dst src _ := (c.enterEmulation_enters byte dst src).recognized
  resume _ _ _ := recognized_block _ (by decide)

/-- After an instruction an interrupt can only be possible if the lockout has just run out. -/
lemma Recognized.finish {c : Cpu} (r : c.Recognized) (wasHigh : Bool)
    (held : (c.finish wasHigh).lockout ≠ 0) : (c.finish wasHigh).Recognized := by
  obtain ⟨d, traced, eq⟩ : ∃ d : Cpu, d.Recognized ∧ c.finish wasHigh = d.retire := by
    obtain ⟨d, eq, finished⟩ := c.finish_cases wasHigh
    have noted : d.Recognized := by
      rw [eq]
      exact recognized_invariant.modifyStatus (fun _ => rfl) (r.modifyStatus rfl)
    obtain run | ⟨-, -, run⟩ := finished
    · exact ⟨d, noted, run⟩
    · exact ⟨_, recognized_invariant.raise .trace noted, run⟩
  -- Counting down, a positive lockout stays positive unless it reaches zero.
  rw [eq] at held ⊢
  have counted : d.retire.lockout = max (d.lockout - 1) lockoutFloor := rfl
  have floor : lockoutFloor < 0 := by decide
  obtain positive | quiet := traced
  · exact .inl (by omega)
  · exact .inr quiet

end Cpu

namespace Machine

variable {β : Type} [Bus β]

/-- A look for interrupts leaves none waiting. -/
lemma checkInterrupts_recognized (m : Machine β) :
    (checkInterrupts.run m).2.cpu.Recognized := by
  obtain ⟨due, run⟩ | ⟨source, bus, -, run⟩ := m.checkInterrupts_cases
  · rw [run]
    exact m.cpu.recognized_iff.mpr due
  · rw [run]
    obtain ⟨timer, enters⟩ := m.cpu.takeInterrupt_enters source
    exact enters.recognized

/-- A look for interrupts changes nothing while none waits. -/
lemma checkInterrupts_unchanged {m : Machine β} (recognized : m.cpu.Recognized) :
    checkInterrupts.run m = ((), m) := by
  have none := m.cpu.recognized_iff.mp recognized
  obtain ⟨-, run⟩ | ⟨source, bus, due, -⟩ := m.checkInterrupts_cases
  · exact run
  · cases none.symm.trans due

/-- An instruction cycle leaves no interrupt waiting, whether it completes or stops. -/
lemma executeOne_recognized {b : Machine β} (r : b.cpu.Recognized) :
    (executeOne.run b).2.cpu.Recognized := by
  obtain ⟨fault, c, fetched, stopped⟩ | ⟨i, c, fetched, completed⟩ := b.executeOne_cases
  · have next := Cpu.recognized_invariant.fetchNext r
    rw [fetched] at next
    rw [stopped]
    exact next
  · have executed : ((execute i).run c).2.cpu.Recognized := by
      have next := Cpu.recognized_invariant.fetchNext r
      rw [fetched] at next
      exact Cpu.recognized_invariant.execute i (fun _ _ _ r => r) next
    rw [completed, complete_run]
    split
    · exact checkInterrupts_recognized _
    · next held => exact executed.finish _ held

/-- No interrupt waits at any boundary of a slice. -/
lemma Visits.recognized {cycles : Nat} {m b : Machine β} (visits : Visits cycles m b) :
    b.cpu.Recognized := by
  induction visits with
  | refl => exact checkInterrupts_recognized _
  | tail _ next ih =>
    have after := executeOne_recognized ih
    rw [next.1] at after
    exact after

/-- No interrupt is lost inside a slice: none waits when an instruction starts, none waits when it ends,
with or without a fault, and none waits when the slice returns. -/
theorem no_interrupt_lost {m : Machine β} {cycles : Nat} (running : m.cpu.fault = none)
    (positive : cycles ≠ 0) :
    (∀ b, Visits cycles m b →
      b.cpu.Recognized ∧ (executeOne.run b).2.cpu.Recognized) ∧
    ((slice cycles).run m).2.cpu.Recognized := by
  refine ⟨fun b visits => ⟨visits.recognized, executeOne_recognized visits.recognized⟩, ?_⟩
  obtain ⟨last, result, e, visits, run, -, ends⟩ := slice_ends running positive
  have after := executeOne_recognized visits.recognized
  rw [run] at after
  rw [ends]
  exact after

/-- A machine whose first line is driven. -/
def lineDriven : Machine (DeviceBus FlatMemory) :=
  let m := powerOn Variant.e132t.config {}
  ⟨m.cpu.setInput 0 true, m.bus⟩

/-- A driven line is due before a slice, and recognized in it. -/
theorem lineDriven_recognized :
    lineDriven.cpu.interruptDue = some (.line .int1) ∧
    (∀ b, Visits 2 lineDriven b →
      b.cpu.Recognized ∧ (executeOne.run b).2.cpu.Recognized) ∧
    ((slice 2).run lineDriven).2.cpu.Recognized := by
  have running : lineDriven.cpu.fault = none := rfl
  have due : lineDriven.cpu.interruptDue = some (.line .int1) := by decide +kernel
  exact ⟨due, no_interrupt_lost running (by decide)⟩

end Machine

end E1Machine
