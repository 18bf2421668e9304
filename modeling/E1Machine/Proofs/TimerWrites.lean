import E1Machine.Proofs.Confinement
import E1Machine.Proofs.Recognition
import E1Machine.Proofs.Resetting

/-!
# Writes of the timer registers

The timer changes when one of its registers is written, when it is called back, and in a reset. Whatever
else a machine does leaves it idle: time passes, and a pending match may be taken (`Cpu.Idles`). A write
that replaces a value on which the timer depends schedules the callback anew (`Cpu.Replaces`). Among the
instructions only a move can name a register of the timer, so each move of a machine makes at most one such
write (`Machine.Writes`), and is idle before and after it.

Main statement: `Machine.follow_writes`, what the writes along a sequence of moves keep, and callback and
reset, the whole sequence keeps.
-/

namespace E1Machine

/-- Whether a global register is one on which the timer depends. -/
def Global.IsTimer (code : Nat) : Prop :=
  code = Global.tpr ∨ code = Global.tcr ∨ code = Global.tr ∨ code = Global.fcr

/-- The registers of the timer are control registers. -/
lemma Global.IsTimer.isControl {code : Nat} (timer : IsTimer code) : IsControl code := by
  obtain rfl | rfl | rfl | rfl := timer <;> exact .inr (by decide)

/-- Whether an operand names a register of the timer. -/
def Operand.IsTimer (o : Operand) : Prop := o.bank = .globals ∧ Global.IsTimer (o.code % 32)

/-- No register that is open to user code is one of the timer. -/
lemma Operand.IsUser.not_isTimer {o : Operand} (isUser : o.IsUser) : ¬ o.IsTimer := by
  rintro ⟨bank, timer⟩
  have small := isUser bank
  have control := timer.isControl
  unfold Global.IsControl at control
  omega

namespace Cpu

/-! ## Idleness -/

/-- Time has passed, and a pending match may have been taken; the timer, and what it reads of the
registers, is otherwise as before. -/
structure Idles (c d : Cpu) : Prop where
  prescaler : d.regs.global Global.tpr = c.regs.global Global.tpr
  compare : d.regs.global Global.tcr = c.regs.global Global.tcr
  inhibits : timerInhibited (d.regs.global Global.fcr) = timerInhibited (c.regs.global Global.fcr)
  timer : d.timer = c.timer ∨ d.timer = { c.timer with pending := false }
  cycles : c.cycles ≤ d.cycles

variable {c d e : Cpu}

/-- Idling goes on from one step to the next. -/
lemma Idles.trans (first : Idles c d) (second : Idles d e) : Idles c e where
  prescaler := second.prescaler.trans first.prescaler
  compare := second.compare.trans first.compare
  inhibits := second.inhibits.trans first.inhibits
  timer := by
    obtain same | taken := second.timer
    · rw [same]
      exact first.timer
    · right
      rw [taken]
      obtain same | taken := first.timer
      · rw [same]
      · rw [taken]
  cycles := Nat.le_trans first.cycles second.cycles

/-- Where the timer is the same, its registers and the passage of time matter. -/
lemma Idles.ofGlobals
    (globals : ∀ code, Global.IsTimer code → d.regs.global code = c.regs.global code)
    (timer : d.timer = c.timer) (cycles : c.cycles ≤ d.cycles) : Idles c d where
  prescaler := globals _ (.inl rfl)
  compare := globals _ (.inr (.inl rfl))
  inhibits := congrArg timerInhibited (globals _ (.inr (.inr (.inr rfl))))
  timer := .inl timer
  cycles := cycles

/-- What leaves control registers and timer alone idles. -/
lemma Idles.ofControl (globals : Registers.SameControl c.regs d.regs) (timer : d.timer = c.timer)
    (cycles : c.cycles ≤ d.cycles) : Idles c d :=
  .ofGlobals (fun code timer => globals code timer.isControl) timer cycles

/-- What leaves control registers and timer alone and takes no time idles. -/
lemma Idles.ofRegs (globals : Registers.SameControl c.regs d.regs) (timer : d.timer = c.timer)
    (cycles : d.cycles = c.cycles) : Idles c d :=
  .ofControl globals timer (Nat.le_of_eq cycles.symm)

/-- What leaves registers and timer alone idles. -/
lemma Idles.quiet (regs : d.regs = c.regs) (timer : d.timer = c.timer) (cycles : c.cycles ≤ d.cycles) :
    Idles c d :=
  .ofControl (fun _ _ => by rw [regs]) timer cycles

/-- A processor idles when nothing is done. -/
lemma Idles.refl (c : Cpu) : Idles c c := .quiet rfl rfl (Nat.le_refl _)

/-- Time spent after idling is idled too. -/
lemma Idles.spend (idles : Idles c d) (n : Nat) : Idles c (d.spend n) :=
  idles.trans (.quiet rfl rfl (Nat.le_add_right _ _))

/-- A change of the status flags after idling is idled too. -/
lemma Idles.modifyStatus (idles : Idles c d) (f : Status → Status) : Idles c (d.modifyStatus f) :=
  idles.trans (.ofRegs (d.regs.sameControl_status _) rfl rfl)

/-- The entry of a handler takes time. -/
lemma Idles.enters (idles : Idles c d) (confined : Confined d e) (enters : Enters d e) : Idles c e := by
  refine idles.trans (.ofControl confined.globals ?_ ?_)
  · obtain ⟨regs, lastPc, n, e, -, -, -, rfl⟩ := enters
    rfl
  · obtain ⟨regs, lastPc, n, e, -, -, -, rfl⟩ := enters
    exact Nat.le_add_right _ _

/-- A store of a register that is not one of the timer idles. -/
lemma store_idles (c : Cpu) {code : Nat} (other : ¬ Global.IsTimer (code % 32)) (value : Word) :
    Idles c (c.store code value) := by
  refine .ofGlobals (fun named timer => ?_) rfl (Nat.le_refl _)
  have small : named < 32 := by
    obtain rfl | rfl | rfl | rfl := timer <;> decide
  refine (Registers.global_setGlobal _ _ _ _).trans (if_neg ?_)
  rw [Nat.mod_eq_of_lt small]
  rintro rfl
  exact other timer

/-! ## Writes -/

/-- A write replaces a value on which the timer depends: this is the processor with the new value, before
the callback is scheduled anew. -/
inductive Replaces (c : Cpu) (code : Nat) (value : Word) : Cpu → Prop where
  | deferred (named : code % 32 = Global.tpr) (defers : prescaleDeferred value = true) :
    Replaces c code value (c.store Global.tpr value)
  | immediate (named : code % 32 = Global.tpr) (applies : prescaleDeferred value = false) :
    Replaces c code value (c.applyPrescale value)
  | compare (named : code % 32 = Global.tcr) (differs : c.regs.global Global.tcr ≠ value) :
    Replaces c code value (c.store Global.tcr value)
  | ticks (named : code % 32 = Global.tr) :
    Replaces c code value { (c.store Global.tr value) with timer := c.timer.rebase c.cycles value }
  | control (named : code % 32 = Global.fcr)
    (turns : timerInhibited (c.regs.global Global.fcr) ≠ timerInhibited value) :
    Replaces c code value (c.store Global.fcr value)

/-- A write leaves the timer idle, or replaces a value on which it depends and schedules the callback. -/
lemma setGlobal_timer (c : Cpu) (code : Nat) (value : Word) :
    Idles c (c.setGlobal code value) ∨
      ∃ d, Replaces c code value d ∧ Idles d.reschedule (c.setGlobal code value) := by
  have blocked (d : Cpu) : Idles d (d.block 1) := .quiet rfl rfl (Nat.le_refl _)
  unfold setGlobal
  -- Only the writes of the prescaler, the compare value, the count and the control register reach the timer.
  split
  case h_1 => exact .inl (.ofRegs (c.regs.sameControl_setPc value) rfl rfl)
  case h_2 => exact .inl (.ofRegs (c.regs.sameControl_status _) rfl rfl)
  case h_3 => exact .inl (.ofRegs (c.regs.sameControl_setGlobal _ (.inr rfl)) rfl rfl)
  case h_4 => exact .inl (c.store_idles (by unfold Global.IsTimer; decide) _)
  case h_5 named =>
    right
    unfold writePrescaler
    split
    · next defers => exact ⟨_, .deferred named defers, .refl _⟩
    · next applies => exact ⟨_, .immediate named (Bool.eq_false_iff.mpr applies), .refl _⟩
  case h_6 named =>
    unfold writeCompare
    split
    · exact .inl (.refl c)
    · next differs => exact .inr ⟨_, .compare named differs, blocked _⟩
  case h_7 named => exact .inr ⟨_, .ticks named, .refl _⟩
  case h_8 => exact .inl (.refl c)
  case h_9 named =>
    unfold writeControl
    dsimp only
    split
    · next turns => exact .inr ⟨_, .control named (bne_iff_ne.mp turns), blocked _⟩
    -- A control word that leaves the timer on or off is idle, although it is stored.
    · next stays =>
      have other {n : Nat} (ne : ¬ Global.fcr % 32 = n % 32) :
          (c.store Global.fcr value).regs.global n = c.regs.global n :=
        (Registers.global_setGlobal _ _ _ _).trans (if_neg ne)
      have written : (c.store Global.fcr value).regs.global Global.fcr = value :=
        (Registers.global_setGlobal _ _ _ _).trans (if_pos rfl)
      have same : timerInhibited (c.regs.global Global.fcr) = timerInhibited value := by
        simpa using stays
      refine .inl (.trans ⟨other (by decide), other (by decide), ?_, .inl rfl, Nat.le_refl _⟩ (blocked _))
      rw [written, same]
  case h_10 =>
    have stored : Idles c (c.store Global.mcr value) :=
      c.store_idles (by unfold Global.IsTimer; decide) value
    left
    unfold writeMemoryControl
    dsimp only
    split
    · exact stored.trans (.quiet rfl rfl (Nat.le_refl _))
    · exact stored.trans (.quiet rfl rfl (Nat.le_refl _))
  case h_11 _ _ _ _ notTpr notTcr notTr _ notFcr _ =>
    left
    refine c.store_idles ?_ value
    rintro (eq | eq | eq | eq)
    · exact notTpr eq
    · exact notTcr eq
    · exact notTr eq
    · exact notFcr eq

/-- A write of a global register that is not one of the timer idles. -/
lemma setGlobal_idles (c : Cpu) {code : Nat} (other : ¬ Global.IsTimer (code % 32)) (value : Word) :
    Idles c (c.setGlobal code value) := by
  obtain idles | ⟨d, replaces, -⟩ := c.setGlobal_timer code value
  · exact idles
  · refine absurd ?_ other
    cases replaces with
    | deferred named | immediate named => exact .inl named
    | compare named => exact .inr (.inl named)
    | ticks named => exact .inr (.inr (.inl named))
    | control named => exact .inr (.inr (.inr named))

/-! ## Callback and reset -/

/-- The callback takes the deadline and applies a deferred prescale: this is the processor then. -/
inductive CalledBack (c : Cpu) : Cpu → Prop where
  | compares {due : Nat} (scheduled : c.timer.deadline = some ⟨due, false⟩) :
    CalledBack c { c with timer := { c.timer with deadline := none } }
  | reloads {due : Nat} (scheduled : c.timer.deadline = some ⟨due, true⟩) :
    CalledBack c (applyPrescale { c with timer := { c.timer with deadline := none } }
      (c.regs.global Global.tpr))

/-- The callback does nothing if none is scheduled. Else it schedules another, or makes the match
pending. -/
lemma timerExpired_timer (c : Cpu) :
    c.timerExpired = c ∨ ∃ d, CalledBack c d ∧ (c.timerExpired = d.reschedule ∨
      c.timerExpired = { d with timer := { d.timer with pending := true } }) := by
  unfold timerExpired Timer.takeDeadline
  cases scheduled : c.timer.deadline with
  | none => exact .inl rfl
  | some deadline =>
    right
    obtain ⟨due, reloads⟩ := deadline
    cases reloads with
    | false =>
      refine ⟨_, .compares scheduled, ?_⟩
      dsimp only
      rw [if_neg Bool.false_ne_true]
      split
      · exact .inl rfl
      · exact .inr rfl
    | true =>
      refine ⟨_, .reloads scheduled, ?_⟩
      dsimp only
      rw [if_pos rfl]
      split
      · exact .inl rfl
      · exact .inr rfl

/-- What taking the deadline, a schedule and a match that becomes pending keep, the callback keeps. -/
lemma timerExpired_keeps {Q : Cpu → Prop} (taken : ∀ {d : Cpu}, CalledBack c d → Q d)
    (reschedule : ∀ {d : Cpu}, Q d → Q d.reschedule)
    (pending : ∀ {d : Cpu}, Q d → Q { d with timer := { d.timer with pending := true } }) (q : Q c) :
    Q c.timerExpired := by
  obtain same | ⟨d, called, again | latched⟩ := c.timerExpired_timer
  · rw [same]
    exact q
  · rw [again]
    exact reschedule (taken called)
  · rw [latched]
    exact pending (taken called)

/-- A reset applies a prescale with no match pending and the timer inhibited. -/
lemma reset_timer (c : Cpu) :
    ∃ d : Cpu, d.timer.pending = false ∧ timerInhibited (d.regs.global Global.fcr) = true ∧
      Idles (d.applyPrescale resetPrescaler).reschedule c.reset := by
  have recovered := c.reset_recovered
  obtain ⟨d, eq⟩ : ∃ d : Cpu, d =
      { c with regs := c.reset.regs, timer := { c.timer.resetPeriod with pending := false } } := ⟨_, rfl⟩
  have regs : d.regs = c.reset.regs := by rw [eq]
  have inhibited : timerInhibited (d.regs.global Global.fcr) = true := by
    rw [regs, recovered.fcr]
    decide
  have immediate : prescaleDeferred (d.regs.global Global.tpr) = false := by
    rw [regs, recovered.tpr]
    decide
  -- The registers are those that the reset leaves, so that the prescaler is written with what it holds.
  have applied : d.applyPrescale resetPrescaler =
      { d with timer := d.timer.setPrescale d.cycles resetPrescaler } := by
    have written : d.regs.setGlobal Global.tpr resetPrescaler = d.regs :=
      Registers.setGlobal_self (by decide) (by rw [regs, recovered.tpr])
    exact congrArg
      (fun regs => { d with regs := regs, timer := d.timer.setPrescale d.cycles resetPrescaler }) written
  refine ⟨d, by rw [eq], inhibited, ?_⟩
  have scheduled := reschedule_inhibited
    (c := { d with timer := d.timer.setPrescale d.cycles resetPrescaler }) immediate inhibited
  rw [applied, scheduled, eq]
  refine .quiet rfl c.timer_reset ?_
  rw [recovered.cycles]
  exact Nat.le_add_right _ _

/-- A write of an operand that is not of the timer idles. -/
lemma write_idles (c : Cpu) {o : Operand} (other : ¬ o.IsTimer) (value : Word) :
    Idles c (c.write o value) := by
  obtain ⟨bank, code⟩ := o
  cases bank with
  | globals => exact c.setGlobal_idles (fun timer => other ⟨rfl, timer⟩) value
  | locals => exact .ofRegs (fun _ _ => rfl) rfl rfl

/-- The flags of an assignment leave the timer idle. -/
lemma assign_idles (c : Cpu) (dst : Operand) (value : Word) (flags : Status → Status) :
    Idles (c.write dst value) (c.assign dst value flags) := by
  have flagged := (Idles.refl (c.write dst value)).modifyStatus flags
  unfold assign
  dsimp only
  split
  · exact flagged.modifyStatus _
  · exact flagged

/-- The read of a moved word leaves the timer idle. -/
lemma readMoved_idles (c : Cpu) (src : Operand) : Idles c (c.readMoved src).2 := by
  unfold readMoved readGlobal readTicks
  dsimp only
  split
  · split
    · exact .refl c
    · split
      · dsimp only
        split
        · exact (Idles.refl c).spend _
        · exact .refl c
      · exact .refl c
  · exact .refl c

/-! ## Instructions -/

variable {i : Instruction}

/-- A step of an instruction with no target in the timer idles. -/
lemma Work.idles (others : ∀ o ∈ i.targets, ¬ o.IsTimer) (work : Work i c d) : Idles c d := by
  cases work with
  | flags => exact .ofRegs (c.regs.sameControl_status _) rfl rfl
  | write target value => exact c.write_idles (others _ target) value
  | spend n => exact .quiet rfl rfl (Nat.le_add_right _ _)
  | report | push | delay => exact .ofRegs (fun _ _ => rfl) rfl rfl
  | branch target => exact .ofRegs (c.regs.sameControl_setPc target) rfl rfl
  | call stacked target =>
    obtain ⟨locals, eq⟩ := fillFrame_changes stacked c _
    rw [eq]
    refine .ofRegs ?_ rfl rfl
    exact (c.regs.sameControl_status _).trans (Registers.sameControl_setPc _ target)
  | reframe => exact .ofRegs (c.regs.sameControl_status _) rfl rfl
  | spill sp => exact .ofRegs (c.regs.sameControl_setSp sp) rfl rfl
  | resume address saved =>
    refine .ofRegs ?_ rfl rfl
    exact (c.regs.sameControl_setPc address).trans (Registers.sameControl_status _ _)
  | refill sp slot value => exact .ofRegs (c.regs.sameControl_setSp sp) rfl rfl

/-- The steps of an instruction with no target in the timer idle, by induction on them. -/
lemma Worked.idles (others : ∀ o ∈ i.targets, ¬ o.IsTimer) (worked : Worked i c d) : Idles c d := by
  induction worked with
  | refl => exact .refl c
  | tail _ work ih => exact ih.trans (work.idles others)

/-- An exception leaves the timer idle. -/
lemma raise_idles (c : Cpu) (exception : Exception) : Idles c (c.raise exception) :=
  (Idles.refl c).enters (c.raise_guarded exception).1 (c.raise_enters exception)

/-- The entry by a trap or an emulation leaves the timer idle. -/
lemma EntersBy.idles (enters : EntersBy i c d) : Idles c d := by
  cases enters with
  | trap => exact (Idles.refl c).enters (c.enterFrame_guarded _ _ _).1 (c.enterTrap_enters _)
  | emulation =>
    exact (Idles.refl c).enters (c.enterEmulation_confined _ _ _).1 (c.enterEmulation_enters _ _ _)
  | exception => exact c.raise_idles _

/-- An instruction that names no register of the timer leaves it idle. -/
lemma Outcome.idles (others : ∀ o ∈ i.targets, ¬ o.IsTimer) (outcome : Outcome i c d) :
    Idles c d := by
  obtain ⟨e, worked, ends⟩ := outcome
  have before := worked.idles others
  cases ends with
  | done => exact before
  | enters enters n => exact (before.trans enters.idles).spend n
  | @advances address late value =>
    obtain ⟨form, step, data, rfl⟩ := Instruction.late_eq late
    have other := others address (List.mem_singleton_self address)
    exact (before.trans (e.raise_idles .range)).trans (write_idles _ other value)

/-- What follows an instruction leaves the timer idle. -/
lemma finish_idles (c : Cpu) (wasHigh : Bool) : Idles c (c.finish wasHigh) := by
  obtain ⟨d, eq, finished⟩ := c.finish_cases wasHigh
  have noted : Idles c d := by
    rw [eq]
    exact ((Idles.refl c).modifyStatus _).modifyStatus _
  have retired (d : Cpu) : Idles d d.retire := .quiet rfl rfl (Nat.le_refl _)
  obtain run | ⟨-, -, run⟩ := finished
  · rw [run]
    exact noted.trans (retired d)
  · rw [run]
    exact (noted.trans (d.raise_idles .trace)).trans (retired _)

/-- Taking an interrupt takes a pending match if it is the timer's. -/
lemma takeInterrupt_idles (c : Cpu) (source : InterruptSource) : Idles c (c.takeInterrupt source) := by
  cases source with
  | timer =>
    have taken : Idles c { c with timer := { c.timer with pending := false } } :=
      ⟨rfl, rfl, rfl, .inr rfl, Nat.le_refl _⟩
    exact taken.enters (enterInterrupt_guarded _ .timer).1 (enterFrame_enters _ _ _ _)
  | line line =>
    exact (Idles.refl c).enters (c.enterInterrupt_guarded (.line line)).1 (enterFrame_enters _ _ _ _)

end Cpu

/-! ## Moves into the timer registers -/

namespace Decode

variable {β : Type} [Bus β]

/-- What is decoded leaves the timer registers alone, or is a move. -/
def Moves (found : Option Instruction) : Prop :=
  ∀ i, found = some i → (∀ o ∈ i.targets, ¬ o.IsTimer) ∨ i.IsMove

/-- Only a move can name a timer register. -/
lemma decode_moves (address : Word) (word : Half) (status : Status) :
    Finds Moves (Instruction.decode address word status : Decode β (Option Instruction)) := by
  obtain ⟨dstField, srcField⟩ := fields_lt word
  refine decode_finds address word status fun i form => ?_
  by_cases move : i.IsMove
  · exact .inr move
  · exact .inl fun o target => ((form.isUser dstField srcField move).targets o target).not_isTimer

end Decode

namespace Machine

variable {β : Type} [Bus β]

/-- The write of a global register by the host or by a move instruction, with the processor that it
finds. -/
inductive Writes (m : Machine β) : Move → Cpu → Nat → Word → Prop where
  | host (code : Nat) (value : Word) : Writes m (.host (.setGlobal code value)) m.cpu code value
  | register {c : Machine β} {code : Nat} {src : Operand}
    (fetched : fetchNext.run m = (.ok (.move ⟨.globals, code⟩ src), c)) :
    Writes m .instruction (c.cpu.readMoved src).2 code (c.cpu.readMoved src).1
  | literal {c : Machine β} {code : Nat} {value : Word}
    (fetched : fetchNext.run m = (.ok (.moveImmediate ⟨.globals, code⟩ value), c)) :
    Writes m .instruction c.cpu code value

/-- All such writes along a sequence of moves have a property. -/
def WritesOnly (P : Cpu → Nat → Word → Prop) : Machine β → List Move → Prop
  | _, [] => True
  | m, first :: moves =>
    (∀ c code value, Writes m first c code value → P c code value) ∧
      WritesOnly P (m.move first) moves

variable {m b : Machine β}

/-- The fetch of an instruction leaves the timer idle. -/
lemma fetchNext_idles (m : Machine β) : Cpu.Idles m.cpu (fetchNext.run m).2.cpu := by
  have passed (cursor : Cursor) : Cpu.Idles m.cpu (m.cpu.begin.continueAt cursor) :=
    .ofRegs ((Registers.sameControl_setPc _ _).trans (Registers.sameControl_setPc _ _)) rfl rfl
  have followed (c : Cpu) : Cpu.Idles c c.redirect := by
    rw [Cpu.redirect_eq]
    cases c.delay.target with
    | none => exact .ofRegs (fun _ _ => rfl) rfl rfl
    | some target => exact .ofRegs (c.regs.sameControl_setPc target) rfl rfl
  obtain ⟨fault, cursor, bus, run⟩ | ⟨i, cursor, bus, run⟩ := m.fetchNext_cases
  · rw [run]
    exact passed cursor
  · rw [run]
    dsimp only
    split
    · exact (passed cursor).trans (followed _)
    · exact passed cursor

/-- The check for interrupts leaves the timer idle, but for the match that it may take. -/
lemma checkInterrupts_idles (m : Machine β) : Cpu.Idles m.cpu (checkInterrupts.run m).2.cpu := by
  obtain ⟨-, run⟩ | ⟨source, bus, -, run⟩ := m.checkInterrupts_cases
  · rw [run]
    exact .refl m.cpu
  · rw [run]
    exact m.cpu.takeInterrupt_idles source

/-- The completion of an instruction leaves the timer idle. -/
lemma complete_idles (m : Machine β) (wasHigh : Bool) :
    Cpu.Idles m.cpu ((complete wasHigh).run m).2.cpu := by
  rw [complete_run]
  split
  · exact (m.cpu.finish_idles wasHigh).trans
      (checkInterrupts_idles (⟨m.cpu.finish wasHigh, m.bus⟩ : Machine β))
  · exact m.cpu.finish_idles wasHigh

/-- An instruction cycle leaves the timer idle, up to a single write of a move. -/
lemma executeOne_idles (b : Machine β) :
    Cpu.Idles b.cpu (executeOne.run b).2.cpu ∨
      ∃ c code value, Writes b .instruction c code value ∧ Cpu.Idles b.cpu c ∧
        Cpu.Idles (c.setGlobal code value) (executeOne.run b).2.cpu := by
  have fetching := b.fetchNext_idles
  obtain ⟨fault, c, fetched, stopped⟩ | ⟨i, c, fetched, completed⟩ := b.executeOne_cases
  · left
    rw [fetched] at fetching
    rw [stopped]
    exact fetching.trans (.quiet rfl rfl (Nat.le_refl _))
  · rw [fetched] at fetching
    rw [completed]
    have completing := ((execute i).run c).2.complete_idles b.cpu.status.h
    -- Only moves can have a register of the timer as their target.
    by_cases others : ∀ o ∈ i.targets, ¬ o.IsTimer
    · left
      exact (fetching.trans ((c.execute_outcome i).idles others)).trans completing
    · right
      have moves := b.fetchNext_finds (Decode.decode_moves _ _ _) (by rw [fetched]) i rfl
      cases moves.resolve_left others with
      | register dst src =>
        obtain ⟨bank, code⟩ := dst
        cases bank with
        | locals => exact absurd (fun o target => List.mem_singleton.mp target ▸ nofun) others
        | globals =>
          refine ⟨_, code, _, .register fetched, fetching.trans (c.cpu.readMoved_idles src), ?_⟩
          have assigned := (c.cpu.readMoved src).2.assign_idles ⟨.globals, code⟩
            (c.cpu.readMoved src).1 (·.setResult (c.cpu.readMoved src).1)
          exact (assigned.spend _).trans completing
      | literal dst value =>
        obtain ⟨bank, code⟩ := dst
        cases bank with
        | locals => exact absurd (fun o target => List.mem_singleton.mp target ▸ nofun) others
        | globals =>
          refine ⟨_, code, value, .literal fetched, fetching, ?_⟩
          have assigned := c.cpu.assign_idles ⟨.globals, code⟩ value
            fun s => { s.setResult value with v := false }
          exact (assigned.spend _).trans completing

/-! ## Sequences of moves -/

section

variable {Q : Cpu → Prop} {P : Cpu → Nat → Word → Prop} {m : Machine β}

/-- A move other than an instruction writes what it says. -/
lemma writesOnly_cons {first : Move} {moves : List Move} (quiet : first ≠ .instruction)
    (written : ∀ code value, first = .host (.setGlobal code value) → P m.cpu code value)
    (rest : WritesOnly P (m.move first) moves) : WritesOnly P m (first :: moves) := by
  refine ⟨fun c code value writes => ?_, rest⟩
  cases writes with
  | host => exact written code value rfl
  | register | literal => exact absurd rfl quiet

/-- A condition that always holds is met by all writes of a sequence. -/
lemma writesOnly_all (moves : List Move) : ∀ m : Machine β, WritesOnly (fun _ _ _ => True) m moves := by
  induction moves with
  | nil => exact fun _ => trivial
  | cons first moves ih => exact fun m => ⟨fun _ _ _ _ => trivial, ih (m.move first)⟩

/-- What idleness, the callback and the writes that a move makes keep, and its reset if it is one, that
move keeps. -/
lemma move_writes (idle : ∀ {c d : Cpu}, c.Idles d → Q c → Q d)
    (replaced : ∀ {c d : Cpu} {code : Nat} {value : Word}, P c code value → c.Replaces code value d →
      Q c → Q d.reschedule)
    (timerExpired : ∀ {c : Cpu}, Q c → Q c.timerExpired) {first : Move}
    (reset : first = .host .reset → ∀ {c : Cpu}, Q c → Q c.reset)
    (only : ∀ c code value, Writes m first c code value → P c code value) (q : Q m.cpu) :
    Q (m.move first).cpu := by
  have idles {d : Cpu} (passes : m.cpu.Idles d) : Q d := idle passes q
  have write {c : Cpu} {code : Nat} {value : Word} (q : Q c) (writes : Writes m first c code value) :
      Q (c.setGlobal code value) := by
    obtain passes | ⟨d, replaces, after⟩ := c.setGlobal_timer code value
    · exact idle passes q
    · exact idle after (replaced (only c code value writes) replaces q)
  -- A host write and a move are the two ways in which a register of the timer is written.
  cases first with
  | host action =>
    cases action with
    | reset => exact reset rfl q
    | setInput line on =>
      refine idles ?_
      show m.cpu.Idles (m.cpu.setInput line on)
      unfold Cpu.setInput
      dsimp only
      split
      · exact m.cpu.store_idles (by unfold Global.IsTimer; decide) _
      · exact .quiet rfl rfl (Nat.le_refl _)
    | setGlobal code value => exact write q (.host code value)
    | setLocal code value => exact idles (.ofRegs (fun _ _ => rfl) rfl rfl)
    | advance cycles => exact idles (.quiet rfl rfl (Nat.le_add_right _ _))
    | timerExpired => exact timerExpired q
  | openSlice budget =>
    have opened : m.cpu.Idles (m.cpu.openSlice budget) := .quiet rfl rfl (Nat.le_refl _)
    exact idles (opened.trans (checkInterrupts_idles (⟨m.cpu.openSlice budget, m.bus⟩ : Machine β)))
  | instruction =>
    obtain passes | ⟨c, code, value, writes, before, after⟩ := m.executeOne_idles
    · exact idles passes
    · exact idle after (write (idles before) writes)
  | closeSlice => exact idles (.quiet rfl rfl (Nat.le_refl _))

/-- What idleness, the callback and the writes along a sequence of moves keep, and a reset if there is one,
the whole sequence keeps. -/
theorem follow_writes (idle : ∀ {c d : Cpu}, c.Idles d → Q c → Q d)
    (replaced : ∀ {c d : Cpu} {code : Nat} {value : Word}, P c code value → c.Replaces code value d →
      Q c → Q d.reschedule)
    (timerExpired : ∀ {c : Cpu}, Q c → Q c.timerExpired) {moves : List Move}
    (reset : .host .reset ∈ moves → ∀ {c : Cpu}, Q c → Q c.reset) (only : WritesOnly P m moves)
    (q : Q m.cpu) : Q (m.follow moves).cpu := by
  induction moves generalizing m with
  | nil => exact q
  | cons first moves ih =>
    obtain ⟨now, later⟩ := only
    refine ih (fun mem => reset (List.mem_cons_of_mem _ mem)) later ?_
    exact move_writes idle replaced timerExpired (fun eq => reset (eq ▸ List.mem_cons_self)) now q

/-- Only a prescale sets the scale and the period of the timer. So what the fields of every prescaler value bring
about, whatever the timer was before, all moves keep. -/
lemma follow_prescaled {T : Word → BitVec 5 → Nat → Prop}
    (prescales : ∀ mask tpr : Word,
      T mask (tpr.extractLsb' 26 5 &&& mask.setWidth 5) ((tpr.extractLsb' 16 8).toNat + 2))
    (moves : List Move) (holds : T m.cpu.timer.scaleMask m.cpu.timer.scale m.cpu.timer.period) :
    let after := (m.follow moves).cpu.timer
    T after.scaleMask after.scale after.period := by
  -- The property is about three fields, and of all that a move does only a prescale changes one of these.
  let Q (c : Cpu) : Prop := T c.timer.scaleMask c.timer.scale c.timer.period
  have idle {c d : Cpu} (idles : c.Idles d) (q : Q c) : Q d := by
    show T d.timer.scaleMask d.timer.scale d.timer.period
    obtain same | taken := idles.timer
    · rw [same]
      exact q
    · rw [taken]
      exact q
  have rescheduled {c : Cpu} (q : Q c) : Q c.reschedule := by
    obtain ⟨deadline, scheduled⟩ := c.reschedule_changes
    rw [scheduled]
    exact q
  have prescaled (c : Cpu) (tpr : Word) : Q (c.applyPrescale tpr) := prescales c.timer.scaleMask tpr
  refine follow_writes (Q := Q) idle (fun _ replaces q => rescheduled ?_) (fun q => ?_) (fun _ {c} _ => ?_)
    (writesOnly_all moves m) holds
  · cases replaces with
    | deferred | compare | control | ticks => exact q
    | immediate => exact prescaled _ _
  · refine Cpu.timerExpired_keeps (fun called => ?_) rescheduled (fun q => q) q
    cases called with
    | compares => exact q
    | reloads => exact prescaled _ _
  · obtain ⟨d, -, -, idles⟩ := c.reset_timer
    exact idle idles (rescheduled (prescaled d _))

end

end Machine

end E1Machine
