import E1Machine.Proofs.Frames
import E1Machine.Proofs.Moves

/-!
# Resets

A reset writes the control registers with their effects, and what these are depends on what the registers and
the timer were: the inhibition of the timer may or may not change, and a callback may be scheduled on the way. But
the prescaler is written last, with the timer inhibited, so that nothing is scheduled in the end
(`Cpu.writeControls_eq`). So what a reset leaves depends on nothing but what it keeps (`Cpu.reset_eq`), and a second
reset moves the tick base, takes its time and does nothing else.

Main statement: `Machine.reset_recovers`.
-/

namespace E1Machine

/-! ## The control registers -/

/-- The register banks with the values that a reset writes to the control registers. -/
def Registers.loadControls (r : Registers) : Registers :=
  (((r.setGlobal Global.bcr (BitVec.allOnes 32)).setGlobal Global.mcr (BitVec.allOnes 32)).setGlobal
    Global.fcr (BitVec.allOnes 32)).setGlobal Global.tpr Cpu.resetPrescaler

namespace Registers

variable (r : Registers)

/-- A reset loads the prescaler with its own value. -/
lemma loadControls_tpr : r.loadControls.global Global.tpr = Cpu.resetPrescaler :=
  (global_setGlobal _ _ _ _).trans (if_pos rfl)

/-- A reset sets all bits of the bus, memory and function control registers. -/
lemma loadControls_ones {code : Nat} (control : code = Global.bcr ∨ code = Global.mcr ∨ code = Global.fcr) :
    r.loadControls.global code = BitVec.allOnes 32 := by
  unfold loadControls
  rw [global_setGlobal, global_setGlobal, global_setGlobal, global_setGlobal]
  obtain rfl | rfl | rfl := control <;> rfl

/-- A reset loads no other global register. -/
lemma loadControls_others {code : Nat}
    (other : code % 32 ∉ [Global.bcr, Global.tpr, Global.fcr, Global.mcr]) :
    r.loadControls.global code = r.global code := by
  simp only [List.mem_cons, List.not_mem_nil, or_false, not_or] at other
  obtain ⟨bcr, tpr, fcr, mcr⟩ := other
  have apart (r : Registers) {a : Nat} (ne : a % 32 ≠ code % 32) (value : Word) :
      (r.setGlobal a value).global code = r.global code := (r.global_setGlobal _ _ _).trans (if_neg ne)
  unfold loadControls
  rw [apart _ (Ne.symm tpr), apart _ (Ne.symm fcr), apart _ (Ne.symm mcr), apart _ (Ne.symm bcr)]

/-- A reset loads no local register. -/
lemma localAt_loadControls (slot : Fin 64) : r.loadControls.localAt slot = r.localAt slot := by
  unfold loadControls
  rw [localAt_setGlobal, localAt_setGlobal, localAt_setGlobal, localAt_setGlobal]

/-- Loading the control registers keeps the status register. -/
lemma status_loadControls : r.loadControls.status = r.status := by
  unfold loadControls
  rw [status_setGlobal _ _ _ (by decide), status_setGlobal _ _ _ (by decide),
    status_setGlobal _ _ _ (by decide), status_setGlobal _ _ _ (by decide)]

end Registers

/-- Registers are the same after a write of what they hold. -/
lemma Registers.setGlobal_self {r : Registers} {code : Nat} {value : Word} (other : code % 32 ≠ Global.sr)
    (holds : r.global code = value) : r.setGlobal code value = r := by
  subst holds
  unfold setGlobal global
  rw [if_neg other, if_neg other]
  exact congrArg (fun globals => { r with globals := globals }) (Vector.set_getElem_self (Nat.mod_lt _ (by decide)))

/-- A write of what a local register holds changes nothing. -/
lemma Registers.setLocalAt_self {r : Registers} {slot : Fin 64} {value : Word} (holds : r.localAt slot = value) :
    r.setLocalAt slot value = r := by
  subst holds
  exact congrArg (fun locals => { r with locals := locals }) (Vector.set_getElem_self slot.isLt)

/-- The timer from a reset on: it counts under the prescale that is loaded then, and nothing is scheduled. -/
def Timer.restart (t : Timer) (now : Nat) : Timer :=
  { t.setPrescale now Cpu.resetPrescaler with deadline := none }

/-- The clock scale from a reset on is 3, as far as the device implements it. -/
lemma Timer.scale_restart (t : Timer) (now : Nat) :
    (t.restart now).scale.toNat = (3 &&& t.scaleMask).toNat := by
  have low (n : Nat) : 3 &&& n = n % 4 := by
    rw [Nat.and_comm]
    exact Nat.and_two_pow_sub_one_eq_mod n 2
  show (3#5 &&& t.scaleMask.setWidth 5).toNat = (3#32 &&& t.scaleMask).toNat
  rw [BitVec.toNat_and, BitVec.toNat_and, BitVec.toNat_setWidth]
  show 3 &&& t.scaleMask.toNat % 32 = 3 &&& t.scaleMask.toNat
  rw [low, low]
  omega

/-- Where the prescale is that of a reset already, only the tick base moves. -/
lemma Timer.restart_eq_rebase {t : Timer} (scale : t.scale.toNat = (3 &&& t.scaleMask).toNat) (period : t.period = 2)
    (deadline : t.deadline = none) (now : Nat) : t.restart now = t.rebase now (t.ticksAt now) := by
  have same : (t.restart now).scale = t.scale := BitVec.eq_of_toNat_eq ((t.scale_restart now).trans scale.symm)
  calc
    t.restart now
      = { t.rebase now (t.ticksAt now) with scale := (t.restart now).scale, period := 2, deadline := none } := rfl
    _ = { t.rebase now (t.ticksAt now) with scale := t.scale, period := t.period, deadline := t.deadline } := by
        rw [same, period, deadline]
    _ = t.rebase now (t.ticksAt now) := rfl

namespace Cpu

/-- An inhibited timer has nothing scheduled, unless a change of prescale is deferred. -/
lemma reschedule_inhibited {c : Cpu} (immediate : prescaleDeferred (c.regs.global Global.tpr) = false)
    (inhibited : timerInhibited (c.regs.global Global.fcr) = true) :
    c.reschedule = { c with timer := { c.timer with deadline := none } } := by
  unfold reschedule Timer.schedule
  dsimp only
  rw [immediate, if_neg Bool.false_ne_true, if_pos inhibited]

/-- A write of the function control register may schedule the callback anew. -/
lemma setGlobal_fcr (c : Cpu) (value : Word) :
    ∃ deadline, c.setGlobal Global.fcr value =
      { c with
        regs := c.regs.setGlobal Global.fcr value
        timer := { c.timer with deadline := deadline }
        lockout := max c.lockout 1 } := by
  obtain ⟨deadline, scheduled⟩ := (c.store Global.fcr value).reschedule_changes
  show ∃ deadline, c.writeControl value = _
  unfold writeControl
  dsimp only
  rw [scheduled]
  split
  · exact ⟨deadline, rfl⟩
  · exact ⟨c.timer.deadline, rfl⟩

/-- The control registers are written one after another, and nothing is left of what is scheduled in between. -/
lemma writeControls_eq (c : Cpu) :
    (((c.setGlobal Global.bcr (BitVec.allOnes 32)).setGlobal Global.mcr (BitVec.allOnes 32)).setGlobal
        Global.fcr (BitVec.allOnes 32)).setGlobal Global.tpr resetPrescaler =
      { c with
        regs := c.regs.loadControls
        timer := c.timer.restart c.cycles
        entry := .mem3
        lockout := max c.lockout 1 } := by
  obtain ⟨anchored, eq⟩ : ∃ anchored : Cpu, anchored =
      { c with
        regs := (c.regs.setGlobal Global.bcr (BitVec.allOnes 32)).setGlobal Global.mcr (BitVec.allOnes 32)
        entry := .mem3 } := ⟨_, rfl⟩
  have written : (c.setGlobal Global.bcr (BitVec.allOnes 32)).setGlobal Global.mcr (BitVec.allOnes 32) =
      anchored := eq.symm
  obtain ⟨deadline, controlled⟩ := anchored.setGlobal_fcr (BitVec.allOnes 32)
  have immediate : prescaleDeferred (c.regs.loadControls.global Global.tpr) = false := by
    rw [c.regs.loadControls_tpr]
    decide
  have inhibited : timerInhibited (c.regs.loadControls.global Global.fcr) = true := by
    rw [c.regs.loadControls_ones (.inr (.inr rfl))]
    decide
  -- A timer that is inhibited has no deadline, so that the last schedule forgets those before it.
  calc
    _ = reschedule
          { c with
            regs := c.regs.loadControls
            timer := { c.timer.setPrescale c.cycles resetPrescaler with deadline := deadline }
            entry := .mem3
            lockout := max c.lockout 1 } := by
      rw [written, controlled, setGlobal_prescaler _ (by decide), eq]
      rfl
    _ = _ := reschedule_inhibited immediate inhibited

/-! ## The state after a reset -/

/-- A processor after a reset but for the frame of the reset handler, and for the time that the reset takes. -/
def restart (c : Cpu) : Cpu :=
  { c with
    regs := (c.regs.loadControls.setPc (TrapEntry.mem3.vector TrapNumber.reset)).modifyStatus resetStatus
    timer := Timer.restart { c.timer.resetPeriod with pending := false } c.cycles
    entry := .mem3
    delay := {}
    fault := none
    lockout := max c.lockout 1 }

/-- A reset restarts the processor and fills the frame of its handler, at the cost of an entry. -/
lemma reset_eq (c : Cpu) :
    c.reset =
      { c.restart.fillFrame 0 [c.restart.returnPc, c.restart.status.bits] with
        cycles := c.cycles + 2 <<< c.restart.timer.scale.toNat } := by
  unfold reset
  dsimp only
  rw [writeControls_eq]
  generalize started : modifyStatus (setPc _ _) resetStatus = d
  have restarted : c.restart = d := started
  rw [← restarted]
  obtain ⟨locals, filled⟩ := fillFrame_changes [c.restart.returnPc, c.restart.status.bits] c.restart 0
  rw [filled, cost_eq]
  rfl

/-- What a reset leaves of a processor, whatever it was: control registers, timer, anchor and frame are set, and the
other registers are kept. -/
structure Recovered (c after : Cpu) : Prop where
  pc : after.regs.pc = 0xfffffff8
  entry : after.entry = .mem3
  status : after.status = { c.status with fp := 0, fl := 2, s := true, l := true, t := false, m := false }
  link : after.regs.localAt (localSlot 0 0) = after.regs.pc ||| 1
  saved : after.regs.localAt (localSlot 1 0) = after.status.bits
  locals (slot : Fin 64) (other : 2 ≤ slot.val) : after.regs.localAt slot = c.regs.localAt slot
  bcr : after.regs.global Global.bcr = BitVec.allOnes 32
  mcr : after.regs.global Global.mcr = BitVec.allOnes 32
  fcr : after.regs.global Global.fcr = BitVec.allOnes 32
  tpr : after.regs.global Global.tpr = resetPrescaler
  globals (code : Nat)
    (other : code % 32 ∉ [Global.pc, Global.sr, Global.bcr, Global.tpr, Global.fcr, Global.mcr]) :
    after.regs.global code = c.regs.global code
  mask : after.timer.scaleMask = c.timer.scaleMask
  scale : after.timer.scale.toNat = (3 &&& c.timer.scaleMask).toNat
  period : after.timer.period = 2
  deadline : after.timer.deadline = none
  pending : after.timer.pending = false
  target : after.delay.target = none
  fault : after.fault = none
  lockout : after.lockout = max c.lockout 1
  cycles : after.cycles = c.cycles + 2 <<< after.timer.scale.toNat
  rest : after =
    { c with
      regs := after.regs, timer := after.timer, entry := after.entry, delay := after.delay,
      lockout := after.lockout, cycles := after.cycles, fault := after.fault }

/-- A reset changes nothing else. -/
lemma reset_changes (c : Cpu) : ∃ locals, c.reset =
    { c.restart with
      regs := { c.restart.regs with locals := locals }
      cycles := c.cycles + 2 <<< c.restart.timer.scale.toNat } := by
  obtain ⟨locals, filled⟩ := fillFrame_changes [c.restart.returnPc, c.restart.status.bits] c.restart 0
  rw [reset_eq, filled]
  exact ⟨locals, rfl⟩

/-- The frame of the reset handler is filled. -/
lemma reset_filled (c : Cpu) :
    Registers.Filled 0 0 [c.restart.returnPc, c.restart.status.bits] c.regs c.reset.regs := by
  have filled := fillFrame_filled [c.restart.returnPc, c.restart.status.bits] c.restart 0 (by simp)
  rw [reset_eq]
  refine filled.congr (fun slot => ?_) fun _ => rfl
  exact (Registers.localAt_setGlobal _ _ _ _).trans (c.regs.localAt_loadControls slot)

/-- After a reset the global registers are those that are loaded, but for the program counter and the status
register. -/
lemma reset_global (c : Cpu) {code : Nat} (notPc : code % 32 ≠ Global.pc) (notSr : code % 32 ≠ Global.sr) :
    c.reset.regs.global code = c.regs.loadControls.global code := by
  obtain ⟨locals, changed⟩ := c.reset_changes
  have kept : c.reset.regs.global code = c.restart.regs.global code := by
    rw [changed]
    rfl
  rw [kept]
  exact (Registers.global_setStatus _ _ notSr).trans (Registers.global_setPc _ _ notPc)

/-- A restarted processor stands at the entry of the reset handler. -/
lemma restart_pc (c : Cpu) : c.restart.regs.pc = 0xfffffff8 :=
  (Registers.global_setStatus _ _ (by decide)).trans (Registers.pc_setPc _ _)

/-- A restarted processor has the status register of a reset. -/
lemma restart_status (c : Cpu) : c.restart.status = resetStatus c.status := by
  have kept : (c.regs.loadControls.setPc (TrapEntry.mem3.vector TrapNumber.reset)).status = c.status :=
    (Registers.status_setGlobal _ _ _ (by decide)).trans c.regs.status_loadControls
  exact congrArg resetStatus kept

/-- The timer after a reset counts from its cycle with the prescale that is loaded. -/
lemma timer_reset (c : Cpu) :
    c.reset.timer = Timer.restart { c.timer.resetPeriod with pending := false } c.cycles := by
  obtain ⟨locals, changed⟩ := c.reset_changes
  rw [changed]
  rfl

/-- What a reset leaves is as it is listed. -/
lemma reset_recovered (c : Cpu) : Recovered c c.reset := by
  obtain ⟨locals, changed⟩ := c.reset_changes
  have pc : c.reset.regs.pc = 0xfffffff8 := by
    rw [changed]
    exact c.restart_pc
  have status : c.reset.status = resetStatus c.status := by
    rw [changed]
    exact c.restart_status
  have timer := c.timer_reset
  -- The first stacked word is the start of the handler with the state bit of supervisor state.
  have link : c.restart.returnPc = 0xfffffff9 := by
    have supervisor : c.restart.status.s = true := by rw [restart_status]; rfl
    unfold returnPc
    rw [restart_pc, supervisor]
    decide
  obtain ⟨holds, others⟩ := c.reset_filled
  have first := holds 0 (Nat.zero_lt_succ _)
  have second := holds 1 (Nat.lt_succ_self _)
  exact
    { pc := pc
      entry := by rw [changed]; rfl
      status := status
      link := by
        rw [pc]
        exact first.trans link
      saved := by
        rw [status, ← restart_status]
        exact second
      locals := by
        intro slot other
        -- Two words fill slots 0 and 1, and no other slot is one of them.
        refine others slot fun k inside same => ?_
        have place := congrArg Fin.val same
        simp only [localSlot, Fin.val_ofNat] at place
        simp only [List.length_cons, List.length_nil] at inside
        omega
      bcr := (c.reset_global (by decide) (by decide)).trans (c.regs.loadControls_ones (.inl rfl))
      mcr := (c.reset_global (by decide) (by decide)).trans (c.regs.loadControls_ones (.inr (.inl rfl)))
      fcr := (c.reset_global (by decide) (by decide)).trans (c.regs.loadControls_ones (.inr (.inr rfl)))
      tpr := (c.reset_global (by decide) (by decide)).trans c.regs.loadControls_tpr
      globals := by
        intro code other
        simp only [List.mem_cons, List.not_mem_nil, or_false, not_or] at other
        obtain ⟨notPc, notSr, bcr, tpr, fcr, mcr⟩ := other
        rw [c.reset_global notPc notSr]
        exact c.regs.loadControls_others (by simp [*])
      mask := by rw [timer]; rfl
      scale := by
        rw [timer]
        exact Timer.scale_restart _ _
      period := by rw [timer]; rfl
      deadline := by rw [timer]; rfl
      pending := by rw [timer]; rfl
      target := by rw [changed]; rfl
      fault := by rw [changed]; rfl
      lockout := by
        rw [changed]
        rfl
      cycles := by rw [changed]
      rest := by rw [changed]; rfl }

/-! ## A second reset -/

/-- A frame that is filled with what it holds is as it was. -/
lemma fillFrame_self (values : List Word) : ∀ (c : Cpu) (code : Nat),
    (∀ k (inside : k < values.length), c.regs.inFrame (code + k) = values[k]) → c.fillFrame code values = c := by
  induction values with
  | nil => exact fun _ _ _ => rfl
  | cons value values ih =>
    intro c code holds
    have first : c.regs.setInFrame code value = c.regs :=
      Registers.setLocalAt_self (holds 0 (Nat.zero_lt_succ _))
    have written : c.modifyRegs (·.setInFrame code value) = c := congrArg (fun regs => { c with regs := regs }) first
    show (c.modifyRegs (·.setInFrame code value)).fillFrame (code + 1) values = c
    rw [written]
    refine ih c (code + 1) fun k inside => ?_
    rw [Nat.add_assoc, Nat.add_comm 1 k]
    exact holds (k + 1) (Nat.succ_lt_succ inside)

namespace Recovered

variable {c d : Cpu} (recovered : Recovered c d)
include recovered

/-- The control registers hold what a reset loads. -/
lemma loadControls : d.regs.loadControls = d.regs := by
  unfold Registers.loadControls
  rw [Registers.setGlobal_self (by decide) recovered.bcr, Registers.setGlobal_self (by decide) recovered.mcr,
    Registers.setGlobal_self (by decide) recovered.fcr, Registers.setGlobal_self (by decide) recovered.tpr]

/-- The status register is that of the reset handler. -/
lemma resetStatus : Cpu.resetStatus d.status = d.status := by
  rw [recovered.status]
  rfl

/-- A processor that was reset is restarted by a new base of its count only. -/
lemma restart_eq :
    d.restart = { d with timer := d.timer.rebase d.cycles (d.timer.ticksAt d.cycles) } := by
  have regs : (d.regs.loadControls.setPc (TrapEntry.mem3.vector TrapNumber.reset)).modifyStatus Cpu.resetStatus =
      d.regs := by
    have vector : d.regs.setPc (TrapEntry.mem3.vector TrapNumber.reset) = d.regs :=
      Registers.setGlobal_self (by decide) recovered.pc
    rw [recovered.loadControls, vector]
    exact congrArg (fun status => { d.regs with status := status }) recovered.resetStatus
  have scale : d.timer.scale.toNat = (3 &&& d.timer.scaleMask).toNat := by
    rw [recovered.scale, recovered.mask]
  have timer := Timer.restart_eq_rebase scale recovered.period recovered.deadline d.cycles
  have cleared : { d.timer.resetPeriod with pending := false } = d.timer := by
    unfold Timer.resetPeriod
    rw [← recovered.period, ← recovered.pending]
  have delay : ({} : DelaySlot) = d.delay := congrArg DelaySlot.mk recovered.target.symm
  have lockout : max d.lockout 1 = d.lockout := by
    rw [recovered.lockout, Int.max_assoc, Int.max_self]
  unfold restart
  rw [regs, cleared, timer, delay, ← recovered.entry, ← recovered.fault, lockout]

/-- A reset of a processor that was just reset moves the tick base to the time of that reset, and takes its time. -/
lemma reset_eq :
    d.reset =
      { d with
        cycles := d.cycles + 2 <<< d.timer.scale.toNat
        timer := d.timer.rebase d.cycles (d.timer.ticksAt d.cycles) } := by
  have supervisor : d.status.s = true := by rw [recovered.status]
  have link : d.regs.pc ||| 1 = d.returnPc := by
    unfold returnPc
    rw [recovered.pc, supervisor]
    decide
  rw [Cpu.reset_eq, recovered.restart_eq, fillFrame_self]
  · rfl
  · -- The frame of the reset handler holds the two words already.
    have held (code : Nat) : d.regs.inFrame code = d.regs.localAt (localSlot code 0) := by
      show d.regs.localAt (localSlot code d.status.fp.toNat) = _
      rw [recovered.status]
      rfl
    intro k inside
    obtain rfl | rfl : k = 0 ∨ k = 1 := by
      simp only [List.length_cons, List.length_nil] at inside
      omega
    · exact (held _).trans (recovered.link.trans link)
    · exact (held _).trans recovered.saved

end Recovered

end Cpu

namespace Machine

variable {β : Type} [Bus β]

/-- A reset brings every machine to the state from which the reset handler starts, whatever is latched, armed,
scheduled or pending before. It keeps the other registers and the bus, which the on-chip memory is part of. A second
reset changes the tick base and the cycle count only. -/
theorem reset_recovers (m : Machine β) :
    let after := m.call (.host .reset)
    m.cpu.Recovered after.cpu ∧ after.bus = m.bus ∧
      after.call (.host .reset) =
        ⟨{ after.cpu with
            cycles := after.cpu.cycles + 2 <<< after.cpu.timer.scale.toNat
            timer := after.cpu.timer.rebase after.cpu.cycles (after.cpu.timer.ticksAt after.cpu.cycles) },
          after.bus⟩ := by
  have recovered := m.cpu.reset_recovered
  exact ⟨recovered, rfl, congrArg (fun cpu => Machine.mk cpu m.bus) recovered.reset_eq⟩

end Machine

end E1Machine
