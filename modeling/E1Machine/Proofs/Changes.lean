import E1Machine.Cpu.Host
import E1Machine.Proofs.Congruence

/-!
# What elementary steps change

Writes of special registers and entries into handlers do several things at once. Each has an inversion
lemma here that lists the fields it may change, and how those change that invariants speak of: the
lockout, the status register's lock, the cycles, and the log of entries. Whatever is not listed is
unchanged, so that no other proof has to look into these definitions.
-/

namespace E1Machine

/-- A jump changes no global register but the program counter. -/
lemma Registers.global_setPc (r : Registers) (value : Word) {code : Nat}
    (notPc : code % 32 ≠ Global.pc) : (r.setPc value).global code = r.global code :=
  (r.global_setGlobal _ _ _).trans (if_neg (Ne.symm notPc))

namespace Cpu

/-- Filling a frame changes local registers and nothing else. -/
lemma fillFrame_changes (values : List Word) : ∀ (c : Cpu) (code : Nat),
    ∃ locals, c.fillFrame code values = { c with regs := { c.regs with locals := locals } } := by
  induction values with
  | nil => exact fun c _ => ⟨c.regs.locals, rfl⟩
  | cons value values ih =>
    intro c code
    obtain ⟨locals, filled⟩ := ih (c.modifyRegs (·.setInFrame code value)) (code + 1)
    exact ⟨locals, filled⟩

/-- Scheduling replaces the callback of the timer, and nothing else. -/
lemma reschedule_changes (c : Cpu) :
    ∃ deadline, c.reschedule = { c with timer := { c.timer with deadline := deadline } } := by
  obtain ⟨deadline, eq⟩ := c.timer.schedule_changes c.cycles (c.regs.global Global.tpr)
    (c.regs.global Global.tcr) (c.regs.global Global.fcr)
  exact ⟨deadline, congrArg (fun timer => { c with timer := timer }) eq⟩

/-- A prescale that is not deferred applies at once. -/
lemma setGlobal_prescaler (c : Cpu) {value : Word} (applies : prescaleDeferred value = false) :
    c.setGlobal Global.tpr value = (c.applyPrescale value).reschedule := by
  show c.writePrescaler value = _
  unfold writePrescaler
  rw [applies, if_neg Bool.false_ne_true]

/-- A write of a global register can change registers, the timer, the anchor of the trap table and the
reports, and holds interrupts back as long as before or for one instruction. -/
lemma setGlobal_changes (c : Cpu) (code : Nat) (value : Word) :
    ∃ regs timer entry lockout reports, (c.lockout ≤ lockout ∧ lockout ≤ max c.lockout 1) ∧
      c.setGlobal code value =
        { c with
          regs := regs, timer := timer, entry := entry, lockout := lockout, reports := reports } := by
  have once : c.lockout ≤ max c.lockout 1 := Int.le_max_left _ _
  have kept : c.lockout ≤ c.lockout ∧ c.lockout ≤ max c.lockout 1 := ⟨Int.le_refl _, once⟩
  have blocked : c.lockout ≤ max c.lockout 1 ∧ max c.lockout 1 ≤ max c.lockout 1 := ⟨once, Int.le_refl _⟩
  -- Each register that has an effect is a case of its own, and only the writes that block set the lockout.
  unfold setGlobal
  split
  · exact ⟨_, _, _, _, _, kept, rfl⟩
  · exact ⟨_, _, _, _, _, blocked, rfl⟩
  · exact ⟨_, _, _, _, _, kept, rfl⟩
  · exact ⟨_, _, _, _, _, kept, rfl⟩
  · unfold writePrescaler
    split <;> exact ⟨_, _, _, _, _, kept, rfl⟩
  · unfold writeCompare
    split
    · exact ⟨_, _, _, _, _, kept, rfl⟩
    · exact ⟨_, _, _, _, _, blocked, rfl⟩
  · exact ⟨_, _, _, _, _, kept, rfl⟩
  · exact ⟨_, _, _, _, _, kept, rfl⟩
  · unfold writeControl
    dsimp only
    split <;> exact ⟨_, _, _, _, _, blocked, rfl⟩
  · unfold writeMemoryControl
    dsimp only
    split <;> exact ⟨_, _, _, _, _, kept, rfl⟩
  · exact ⟨_, _, _, _, _, kept, rfl⟩

/-- A write of a global register replaces the low half of the status register if that is the one named;
otherwise it can change the register named and no other. -/
lemma setGlobal_regs (c : Cpu) (code : Nat) (value : Word) :
    (code % 32 = Global.sr ∧
      (c.setGlobal code value).regs = c.regs.modifyStatus (·.write value)) ∨
    (code % 32 ≠ Global.sr ∧ ((c.setGlobal code value).regs = c.regs ∨
      ∃ v, (c.setGlobal code value).regs = c.regs.setGlobal (code % 32) v)) := by
  have plain : (c.store code value).regs = c.regs.setGlobal (code % 32) value := by
    simp [store, modifyRegs, Registers.setGlobal]
  unfold setGlobal
  -- From here on the code is a number, so that each case knows which register it is.
  generalize code % 32 = n at plain
  split
  · exact .inr ⟨by decide, .inr ⟨_, rfl⟩⟩
  · exact .inl ⟨rfl, rfl⟩
  · exact .inr ⟨by decide, .inr ⟨_, rfl⟩⟩
  · exact .inr ⟨by decide, .inr ⟨_, rfl⟩⟩
  · unfold writePrescaler
    split <;> exact .inr ⟨by decide, .inr ⟨_, rfl⟩⟩
  · unfold writeCompare
    split
    · exact .inr ⟨by decide, .inl rfl⟩
    · exact .inr ⟨by decide, .inr ⟨_, rfl⟩⟩
  · exact .inr ⟨by decide, .inr ⟨_, rfl⟩⟩
  · exact .inr ⟨by decide, .inl rfl⟩
  · unfold writeControl
    dsimp only
    split <;> exact .inr ⟨by decide, .inr ⟨_, rfl⟩⟩
  · unfold writeMemoryControl
    dsimp only
    split <;> exact .inr ⟨by decide, .inr ⟨_, rfl⟩⟩
  · next notSr _ _ _ _ _ _ _ _ => exact .inr ⟨notSr, .inr ⟨value, plain⟩⟩

/-- A write of a global register changes no other one. -/
lemma setGlobal_others (c : Cpu) {code : Nat} {value : Word} {other : Nat} (apart : code % 32 ≠ other)
    (small : other < 32 ∧ other ≠ Global.sr) :
    (c.setGlobal code value).regs.global other = c.regs.global other := by
  have reduced : other % 32 = other := Nat.mod_eq_of_lt small.1
  obtain ⟨-, eq⟩ | ⟨-, eq | ⟨v, eq⟩⟩ := c.setGlobal_regs code value
  · rw [eq]
    exact Registers.global_setStatus _ _ (by rw [reduced]; exact small.2)
  · rw [eq]
  · rw [eq, Registers.global_setGlobal, Nat.mod_mod, reduced, if_neg apart]

/-- A write of a global register changes no local one. -/
lemma setGlobal_localAt (c : Cpu) (code : Nat) (value : Word) (slot : Fin 64) :
    (c.setGlobal code value).regs.localAt slot = c.regs.localAt slot := by
  obtain ⟨-, eq⟩ | ⟨-, eq | ⟨v, eq⟩⟩ := c.setGlobal_regs code value
  · rw [eq]
    rfl
  · rw [eq]
  · rw [eq]
    exact Registers.localAt_setGlobal _ _ _ _

/-- A write of a global register leaves the status register alone or replaces its low half. -/
lemma setGlobal_status (c : Cpu) (code : Nat) (value : Word) :
    (c.setGlobal code value).status = c.status ∨
      (c.setGlobal code value).status = c.status.write value := by
  unfold status
  obtain ⟨-, eq⟩ | ⟨notSr, eq | ⟨v, eq⟩⟩ := c.setGlobal_regs code value
  · exact .inr (by rw [eq]; rfl)
  · exact .inl (by rw [eq])
  · exact .inl (by rw [eq, Registers.status_setGlobal _ _ _ (by rwa [Nat.mod_mod])])

/-- A write changes the local register that it names, if it names one. -/
lemma write_localAt (c : Cpu) (o : Operand) (value : Word) (slot : Fin 64) :
    (c.write o value).regs.localAt slot =
      if o.bank = .locals ∧ c.regs.slot o.code = slot then value else c.regs.localAt slot := by
  obtain ⟨bank, code⟩ := o
  cases bank with
  | globals =>
    exact (c.setGlobal_localAt code value slot).trans (if_neg fun named => nomatch named.1).symm
  | locals =>
    refine (Registers.localAt_setLocalAt c.regs (c.regs.slot code) slot value).trans ?_
    exact if_congr (by simp) rfl rfl

/-- A write leaves the mode bits above the low half of the status register alone, and the frame. -/
lemma write_status (c : Cpu) (o : Operand) (value : Word) :
    (c.write o value).status = c.status ∨ (c.write o value).status = c.status.write value := by
  obtain ⟨bank, code⟩ := o
  cases bank with
  | globals => exact c.setGlobal_status code value
  | locals => exact .inl rfl

/-- A write of any other register leaves the status register alone. -/
lemma write_status_of_ne (c : Cpu) {o : Operand} (other : o.bank = .globals → o.code % 32 ≠ Global.sr)
    (value : Word) : (c.write o value).status = c.status := by
  obtain ⟨bank, code⟩ := o
  cases bank with
  | locals => rfl
  | globals =>
    unfold status
    obtain ⟨isSr, -⟩ | ⟨notSr, eq | ⟨v, eq⟩⟩ := c.setGlobal_regs code value
    · exact absurd isSr (other rfl)
    · exact congrArg Registers.status eq
    · exact (congrArg Registers.status eq).trans
        (Registers.status_setGlobal _ _ _ (by rwa [Nat.mod_mod]))

/-- A write changes no global register but the one that it names, if it names one. -/
lemma write_others (c : Cpu) {o : Operand} {value : Word} {other : Nat}
    (apart : o.bank = .globals → o.code % 32 ≠ other) (small : other < 32 ∧ other ≠ Global.sr) :
    (c.write o value).regs.global other = c.regs.global other := by
  obtain ⟨bank, code⟩ := o
  cases bank with
  | locals => rfl
  | globals => exact c.setGlobal_others (apart rfl) small

/-- A local register holds the value that was written to it. -/
lemma read_write_local (c : Cpu) {o : Operand} (isLocal : o.bank = .locals) (value : Word) :
    (c.write o value).read o = value := by
  obtain ⟨bank, code⟩ := o
  cases isLocal
  exact (c.write_localAt ⟨.locals, code⟩ value _).trans (if_pos ⟨rfl, rfl⟩)

/-- A write of a register enters no handler. -/
lemma write_entries (c : Cpu) (o : Operand) (value : Word) :
    (c.write o value).entries = c.entries := by
  obtain ⟨bank, code⟩ := o
  cases bank with
  | locals => rfl
  | globals =>
    obtain ⟨regs, timer, entry, lockout, reports, -, eq⟩ := c.setGlobal_changes code value
    show (c.setGlobal code value).entries = _
    rw [eq]

/-- A jump keeps the status register. -/
lemma jump_status (c : Cpu) (target : Word) : (c.jump target).status = c.status :=
  Registers.status_setGlobal _ _ _ (by decide)

/-- Moving the frame changes the status register and nothing else. -/
lemma reframe_changes (c : Cpu) (back length : BitVec 4) :
    ∃ status, c.reframe back length = { c with regs := { c.regs with status := status } } := ⟨_, rfl⟩

/-- Resuming changes the program counter, the status register and the lockout. -/
lemma resume_changes (c : Cpu) (address saved : Word) :
    ∃ status lastPc lockout, c.resume address saved =
      { c with
        regs := { c.regs.setPc address with status := status },
        lastPc := lastPc, lockout := lockout, length := 0 } := ⟨_, _, _, rfl⟩

/-- The entry of a handler: it locks interrupts, takes its time, and is noted with the target of a
delayed branch that is pending then. -/
def Enters (c d : Cpu) : Prop :=
  ∃ regs lastPc n e, 0 < n ∧ regs.status.l = true ∧ e.target = c.delay.target ∧
    d = { c with
      regs := regs, lastPc := lastPc, cycles := c.cycles + n, remaining := c.remaining - n,
      entries := c.entries.push e }

/-- Stacking words changes the registers and notes one entry, with the target of a delayed branch that is pending.
-/
lemma stackEntry_changes (c : Cpu) (cause : EntryCause) (length : BitVec 4) (stacked : List Word) :
    ∃ regs e, e.target = c.delay.target ∧
      c.stackEntry cause length stacked =
        { c with regs := regs, entries := c.entries.push e } := by
  obtain ⟨locals, filled⟩ := fillFrame_changes stacked (c.modifyStatus (·.openFrame length)) 0
  unfold stackEntry
  rw [filled]
  exact ⟨_, ⟨cause, _, stacked, c.delay.target⟩, rfl, rfl⟩

/-- A frame that is entered through a vector is an entry. -/
lemma enterFrame_enters (c : Cpu) (cause : EntryCause) (vector : Word) (length : BitVec 4) :
    Enters c (c.enterFrame cause vector length) := by
  obtain ⟨regs, e, target, stacked⟩ := (c.noteLength c.length).stackEntry_changes cause length
    [(c.noteLength c.length).returnPc, (c.noteLength c.length).status.bits]
  unfold enterFrame
  dsimp only
  rw [stacked]
  exact ⟨_, _, _, e, cost_pos _ .entrySequence, rfl, target, rfl⟩

/-- A trap is an entry. -/
lemma enterTrap_enters (c : Cpu) (number : Nat) : Enters c (c.enterTrap number) :=
  c.enterFrame_enters _ _ _

/-- An exception is an entry. -/
lemma raise_enters (c : Cpu) (exception : Exception) : Enters c (c.raise exception) :=
  c.enterFrame_enters _ _ _

/-- The emulation of an instruction is an entry. -/
lemma enterEmulation_enters (c : Cpu) (byte : Byte) (dst src : Nat) :
    Enters c (c.enterEmulation byte dst src) := by
  obtain ⟨regs, e, target, stacked⟩ := (c.noteLength 1).stackEntry_changes (.emulation byte) 6
    [(c.noteLength 1).stackAddress dst, (c.noteLength 1).regs.inFrame src,
      (c.noteLength 1).regs.inFrame (src + 1), (c.noteLength 1).returnPc,
      (c.noteLength 1).status.bits]
  unfold enterEmulation
  dsimp only
  rw [stacked]
  exact ⟨_, _, _, e, cost_pos _ .softwareEntry, rfl, target, rfl⟩

/-- Taking an interrupt is an entry; the timer's is no longer pending then. -/
lemma takeInterrupt_enters (c : Cpu) (source : InterruptSource) :
    ∃ timer, Enters { c with timer := timer } (c.takeInterrupt source) :=
  ⟨_, enterFrame_enters _ _ _ _⟩

/-- The callback of the timer changes registers and the timer. -/
lemma timerExpired_changes (c : Cpu) :
    ∃ regs timer, c.timerExpired = { c with regs := regs, timer := timer } := by
  unfold timerExpired Timer.takeDeadline
  cases c.timer.deadline with
  | none => exact ⟨_, _, rfl⟩
  | some deadline =>
    dsimp only
    split <;> split <;> exact ⟨_, _, rfl⟩

/-- Serving the timer is its callback, or nothing. -/
lemma serviceTimer_changes (c : Cpu) :
    ∃ regs timer, c.serviceTimer = { c with regs := regs, timer := timer } := by
  unfold serviceTimer
  split
  · split
    · exact c.timerExpired_changes
    · exact ⟨_, _, rfl⟩
  · exact ⟨_, _, rfl⟩

/-- Following a delayed branch moves the program counter to the target if there is one, and nothing is
pending afterwards. -/
lemma redirect_eq (c : Cpu) :
    c.redirect =
      { c with regs := c.delay.target.elim c.regs c.regs.setPc, delay := {} } := by
  unfold redirect DelaySlot.take
  cases c.delay.target with
  | none => rfl
  | some target => rfl

/-- A property that looks at neither registers nor timer is an invariant if it survives these: a change
of other fields that does not shorten the lockout, a delayed branch that is followed, the passage of
time, and the entry of a handler. -/
lemma Invariant.ofChanges {P : Cpu → Prop}
    (quiet : ∀ {c : Cpu} (regs : Registers) (timer : Timer) (entry : TrapEntry) (lastPc : Word)
      (length : Nat) (lockout : Int) (reports : Array Diagnostic), c.lockout ≤ lockout → P c →
      P { c with
        regs := regs, timer := timer, entry := entry, lastPc := lastPc, length := length,
        lockout := lockout, reports := reports })
    (followed : ∀ {c : Cpu}, P c → P { c with delay := {} })
    (spend : ∀ {c : Cpu} (n : Nat), P c → P (c.spend n))
    (enters : ∀ {c d : Cpu}, Enters c d → P c → P d) : Invariant P where
  begin := quiet _ _ _ _ _ _ _ (Int.le_refl _)
  continueAt _ := quiet _ _ _ _ _ _ _ (Int.le_refl _)
  redirect {c} p := by
    rw [redirect_eq]
    exact quiet _ _ _ _ _ _ _ (Int.le_refl _) (followed p)
  modifyStatus _ := quiet _ _ _ _ _ _ _ (Int.le_refl _)
  setLocalAt _ _ := quiet _ _ _ _ _ _ _ (Int.le_refl _)
  setSp _ := quiet _ _ _ _ _ _ _ (Int.le_refl _)
  setGlobal {c} code value p := by
    obtain ⟨regs, timer, entry, lockout, reports, ⟨longer, -⟩, eq⟩ := c.setGlobal_changes code value
    rw [eq]
    exact quiet regs timer entry _ _ lockout reports longer p
  jump _ := quiet _ _ _ _ _ _ _ (Int.le_refl _)
  spend := spend
  block _ := quiet _ _ _ _ _ _ _ (Int.le_max_left _ _)
  report _ := quiet _ _ _ _ _ _ _ (Int.le_refl _)
  enterTrap {c} number := enters (c.enterTrap_enters number)
  raise {c} exception := enters (c.raise_enters exception)
  enterEmulation {c} byte dst src := enters (c.enterEmulation_enters byte dst src)
  resume _ _ := quiet _ _ _ _ _ _ _ (Int.le_max_left _ _)

end Cpu

end E1Machine
