import E1Machine.Bus.Flat
import E1Machine.Proofs.TimerWrites

/-!
# The schedule and the registers

The callback is scheduled anew by each write that replaces a value on which the timer depends, with one
exception: where the compare value lies behind and a match is pending, the schedule is left as it was
(`Cpu.Overlooks`). So what is scheduled is what the registers call for as long as no such write leaves a
deadline behind (`Machine.schedule_follows`). One that does leaves a deadline that was computed from values
since replaced, such as a reload of the prescale that is no longer deferred
(`Machine.reload_outlives_deferral`).
-/

namespace E1Machine

namespace Timer

variable {t : Timer} {now : Nat} {tpr tcr fcr : Word}

/-- The callback that register values call for: what is scheduled with nothing pending and nothing
scheduled before. -/
def called (t : Timer) (now : Nat) (tpr tcr fcr : Word) : Option Deadline :=
  ({ t with pending := false, deadline := none }.schedule now tpr tcr fcr).deadline

/-- Whether the schedule is left as it was: the compare value is neither deferred nor inhibited and lies
behind, and a match is pending. -/
def Overlooks (t : Timer) (now : Nat) (tpr tcr fcr : Word) : Prop :=
  prescaleDeferred tpr = false ∧ timerInhibited fcr = false ∧
    0x80000000#32 < tcr - t.ticksAt now ∧ t.pending = true

/-- A schedule that is overlooked is left as it was. -/
lemma schedule_overlooked (overlooks : t.Overlooks now tpr tcr fcr) :
    t.schedule now tpr tcr fcr = t := by
  obtain ⟨immediate, enabled, behind, pending⟩ := overlooks
  unfold schedule
  dsimp only
  rw [immediate, enabled, pending, if_neg Bool.false_ne_true, if_neg Bool.false_ne_true, if_pos behind,
    if_pos rfl]

/-- A schedule that is not overlooked has the callback that the registers call for. -/
lemma schedule_called (heeds : ¬ t.Overlooks now tpr tcr fcr) :
    (t.schedule now tpr tcr fcr).deadline = t.called now tpr tcr fcr := by
  -- The count does not depend on the schedule.
  have count : ({ t with pending := false, deadline := none } : Timer).ticksAt now = t.ticksAt now := rfl
  unfold called schedule
  dsimp only
  rw [count]
  split
  · rfl
  · next immediate =>
    split
    · rfl
    · next enabled =>
      split
      · next behind =>
        have idle : t.pending = false := by
          refine Bool.eq_false_iff.mpr fun pending => heeds ⟨?_, ?_, behind, pending⟩
          · exact Bool.eq_false_iff.mpr immediate
          · exact Bool.eq_false_iff.mpr enabled
        rw [idle]
        rfl
      · rfl

/-- A reload is called for exactly if a change of prescale is deferred. -/
lemma called_reload :
    (∃ due, t.called now tpr tcr fcr = some ⟨due, true⟩) ↔ prescaleDeferred tpr = true := by
  unfold called schedule
  dsimp only
  constructor
  · rintro ⟨due, calls⟩
    split at calls
    · assumption
    · split at calls
      · cases calls
      · split at calls
        · cases calls
        · cases calls
  · intro deferred
    rw [if_pos deferred]
    exact ⟨_, rfl⟩

/-- Without that, an inhibited timer calls for nothing. -/
lemma called_inhibited (immediate : prescaleDeferred tpr = false) (inhibited : timerInhibited fcr = true) :
    t.called now tpr tcr fcr = none := by
  unfold called schedule
  dsimp only
  rw [immediate, if_neg Bool.false_ne_true, if_pos inhibited]

/-- Of the control register only the inhibition matters. -/
lemma called_congr {fcr' : Word} (inhibits : timerInhibited fcr' = timerInhibited fcr) :
    t.called now tpr tcr fcr' = t.called now tpr tcr fcr := by
  unfold called schedule
  dsimp only
  rw [inhibits]

end Timer

namespace Cpu

variable {c d : Cpu}

/-- The callback that the timer registers have called for at a cycle. -/
def callFor (c : Cpu) (now : Nat) : Option Deadline :=
  c.timer.called now (c.regs.global Global.tpr) (c.regs.global Global.tcr) (c.regs.global Global.fcr)

/-- Whether a schedule would leave the deadline as it is. -/
def Overlooks (c : Cpu) : Prop :=
  c.timer.Overlooks c.cycles (c.regs.global Global.tpr) (c.regs.global Global.tcr)
    (c.regs.global Global.fcr)

/-- While the timer idles its deadline stays. -/
lemma Idles.deadline (idles : c.Idles d) : d.timer.deadline = c.timer.deadline := by
  obtain same | taken := idles.timer
  · rw [same]
  · rw [taken]

/-- While the timer idles the registers call for the same. -/
lemma Idles.callFor (idles : c.Idles d) (now : Nat) : d.callFor now = c.callFor now := by
  unfold Cpu.callFor
  rw [idles.prescaler, idles.compare, Timer.called_congr idles.inhibits]
  obtain same | taken := idles.timer
  · rw [same]
  · rw [taken]
    rfl

/-- Scheduling a callback does not change what is called for. -/
lemma callFor_reschedule (c : Cpu) (now : Nat) : c.reschedule.callFor now = c.callFor now := by
  obtain ⟨deadline, scheduled⟩ := c.reschedule_changes
  rw [scheduled]
  rfl

/-- Unless it is overlooked, what is scheduled is what the registers call for now. -/
lemma reschedule_heeded (heeds : ¬ c.Overlooks) :
    c.reschedule.timer.deadline = c.reschedule.callFor c.cycles :=
  (Timer.schedule_called heeds).trans (c.callFor_reschedule c.cycles).symm

/-- Where it is overlooked the deadline stays. -/
lemma reschedule_overlooked (overlooks : c.Overlooks) : c.reschedule.timer.deadline = c.timer.deadline :=
  congrArg Timer.deadline (Timer.schedule_overlooked overlooks)

/-! ## What no write breaks -/

/-- A deferred prescale has its reload scheduled, and an inhibited timer has nothing scheduled without
one. -/
structure Heeding (c : Cpu) : Prop where
  reloads (deferred : prescaleDeferred (c.regs.global Global.tpr) = true) :
    ∃ due, c.timer.deadline = some ⟨due, true⟩
  inhibited (immediate : prescaleDeferred (c.regs.global Global.tpr) = false)
    (inhibited : timerInhibited (c.regs.global Global.fcr) = true) : c.timer.deadline = none

/-- While the timer idles it stays heeding. -/
lemma Heeding.idles (heeding : c.Heeding) (idles : c.Idles d) : d.Heeding where
  reloads deferred := by
    rw [idles.deadline]
    exact heeding.reloads (idles.prescaler ▸ deferred)
  inhibited immediate inhibited := by
    rw [idles.deadline]
    exact heeding.inhibited (idles.prescaler ▸ immediate) (idles.inhibits.symm.trans inhibited)

/-- A schedule that is left as it was is left so neither for a deferral nor for an inhibition. -/
lemma reschedule_heeding (c : Cpu) : c.reschedule.Heeding := by
  by_cases overlooks : c.Overlooks
  · obtain ⟨immediate, enabled, -, -⟩ := overlooks
    constructor
    · intro deferred
      cases immediate.symm.trans deferred
    · intro _ inhibited
      cases enabled.symm.trans inhibited
  · constructor
    · intro deferred
      rw [reschedule_heeded overlooks]
      exact Timer.called_reload.mpr deferred
    · intro immediate inhibited
      rw [reschedule_heeded overlooks]
      exact Timer.called_inhibited immediate inhibited

/-- After the callback nothing is scheduled. -/
lemma CalledBack.deadline (called : c.CalledBack d) : d.timer.deadline = none := by
  cases called with
  | compares => rfl
  | reloads => rfl

/-- A prescaler value that is applied is kept without its deferral bit. -/
lemma applyPrescale_immediate (c : Cpu) (tpr : Word) :
    prescaleDeferred ((c.applyPrescale tpr).regs.global Global.tpr) = false := by
  have kept : (c.applyPrescale tpr).regs.global Global.tpr = clearDeferral tpr :=
    (Registers.global_setGlobal _ _ _ _).trans (if_pos rfl)
  rw [kept]
  unfold prescaleDeferred clearDeferral
  rw [BitVec.getLsbD_and]
  exact Bool.and_false _

/-- After the callback no prescale is deferred, since its reload was scheduled. -/
lemma Heeding.calledBack (heeding : c.Heeding) (called : c.CalledBack d) :
    prescaleDeferred (d.regs.global Global.tpr) = false := by
  cases called with
  | compares scheduled =>
    refine Bool.eq_false_iff.mpr fun deferred => ?_
    obtain ⟨due, reload⟩ := heeding.reloads deferred
    cases scheduled.symm.trans reload
  | reloads => exact applyPrescale_immediate _ _

/-- The callback of a heeding timer leaves it heeding. -/
lemma Heeding.timerExpired (heeding : c.Heeding) : c.timerExpired.Heeding := by
  obtain same | ⟨d, called, again | latched⟩ := c.timerExpired_timer
  · rw [same]
    exact heeding
  · rw [again]
    exact d.reschedule_heeding
  · rw [latched]
    constructor
    · intro deferred
      cases (heeding.calledBack called).symm.trans deferred
    · exact fun _ _ => called.deadline

/-- A reset leaves the timer heeding. -/
lemma reset_heeding (c : Cpu) : c.reset.Heeding := by
  obtain ⟨d, -, -, idles⟩ := c.reset_timer
  exact (reschedule_heeding _).idles idles

/-! ## What every write keeps that leaves no deadline behind -/

/-- Replacing a value on which the timer depends leaves its deadline, its pending match and the cycle alone. -/
lemma Replaces.kept {code : Nat} {value : Word} (replaces : c.Replaces code value d) :
    d.timer.deadline = c.timer.deadline ∧ d.timer.pending = c.timer.pending ∧ d.cycles = c.cycles := by
  cases replaces with
  | deferred | immediate | compare | ticks | control => exact ⟨rfl, rfl, rfl⟩

/-- A write that replaces a value schedules the callback. -/
lemma Replaces.setGlobal {code : Nat} {value : Word} (replaces : c.Replaces code value d) :
    d.reschedule.Idles (c.setGlobal code value) := by
  have blocked (e : Cpu) : e.Idles (e.block 1) := .quiet rfl rfl (Nat.le_refl _)
  unfold Cpu.setGlobal
  cases replaces with
  | deferred named defers =>
    rw [named]
    show Idles _ (c.writePrescaler value)
    unfold writePrescaler
    rw [if_pos defers]
    exact .refl _
  | immediate named applies =>
    rw [named]
    show Idles _ (c.writePrescaler value)
    unfold writePrescaler
    rw [applies, if_neg Bool.false_ne_true]
    exact .refl _
  | compare named differs =>
    rw [named]
    show Idles _ (c.writeCompare value)
    unfold writeCompare
    rw [if_neg differs]
    exact blocked _
  | ticks named =>
    rw [named]
    exact .refl _
  | control named turns =>
    rw [named]
    show Idles _ (c.writeControl value)
    unfold writeControl
    dsimp only
    rw [if_pos (bne_iff_ne.mpr turns)]
    exact blocked _

/-- Whether a write leaves no deadline behind: it is not overlooked, or nothing is scheduled. -/
def Heeds (c : Cpu) (code : Nat) (value : Word) : Prop :=
  ∀ d, c.Replaces code value d → d.Overlooks → c.timer.deadline = none

/-- With no match pending every write is heeded. -/
lemma heeds_of_idle (idle : c.timer.pending = false) (code : Nat) (value : Word) :
    c.Heeds code value := by
  intro d replaces overlooks
  cases (replaces.kept.2.1.trans idle).symm.trans overlooks.2.2.2

/-- Nothing is scheduled, or what the registers have called for since the last write to them. -/
def Following (c : Cpu) : Prop :=
  c.timer.deadline = none ∨ ∃ now ≤ c.cycles, c.timer.deadline = c.callFor now

/-- While the timer idles its deadline follows the registers. -/
lemma Following.idles (following : c.Following) (idles : c.Idles d) : d.Following := by
  unfold Following
  rw [idles.deadline]
  obtain none | ⟨now, before, called⟩ := following
  · exact .inl none
  · refine .inr ⟨now, Nat.le_trans before idles.cycles, ?_⟩
    rw [idles.callFor]
    exact called

/-- A callback that is scheduled anew follows the registers, unless it is overlooked with a deadline in place. -/
lemma reschedule_following (unscheduled : c.Overlooks → c.timer.deadline = none) :
    c.reschedule.Following := by
  by_cases overlooks : c.Overlooks
  · left
    rw [reschedule_overlooked overlooks]
    exact unscheduled overlooks
  · exact .inr ⟨c.cycles, Nat.le_refl _, reschedule_heeded overlooks⟩

/-- After the callback the deadline follows the registers. -/
lemma Following.timerExpired (following : c.Following) : c.timerExpired.Following := by
  obtain same | ⟨d, called, again | latched⟩ := c.timerExpired_timer
  · rw [same]
    exact following
  · rw [again]
    exact reschedule_following fun _ => called.deadline
  · rw [latched]
    exact .inl called.deadline

/-- After a reset the deadline follows the registers. -/
lemma reset_following (c : Cpu) : c.reset.Following := by
  obtain ⟨d, idle, -, idles⟩ := c.reset_timer
  refine (reschedule_following fun overlooks => ?_).idles idles
  cases idle.symm.trans overlooks.2.2.2

end Cpu

namespace Machine

open Cpu

/-- What is scheduled follows the timer registers. A deferred prescale always has its reload scheduled, and
without one an inhibited timer has nothing scheduled. A write that replaces a value schedules what the
registers call for then, unless it is overlooked, and then it changes nothing. If no write of a sequence of
moves leaves a deadline behind that way, a reload is scheduled only for a deferred prescale, and nothing is
scheduled but what the registers have called for. -/
theorem schedule_follows {β : Type} [Bus β] (config : Config) (host : β) (moves : List Move) :
    let c := ((powerOn config host).follow moves).cpu
    (prescaleDeferred (c.regs.global Global.tpr) = true →
      ∃ due, c.timer.deadline = some ⟨due, true⟩) ∧
    (prescaleDeferred (c.regs.global Global.tpr) = false →
      timerInhibited (c.regs.global Global.fcr) = true → c.timer.deadline = none) ∧
    (∀ (b d : Cpu) (code : Nat) (value : Word), b.Replaces code value d →
      (d.Overlooks → (b.setGlobal code value).timer.deadline = b.timer.deadline) ∧
      (¬ d.Overlooks →
        (b.setGlobal code value).timer.deadline = (b.setGlobal code value).callFor b.cycles)) ∧
    (WritesOnly Heeds (powerOn config host) moves →
      ((∃ due, c.timer.deadline = some ⟨due, true⟩) ↔
        prescaleDeferred (c.regs.global Global.tpr) = true) ∧
      (c.timer.deadline = none ∨ ∃ now ≤ c.cycles, c.timer.deadline = c.callFor now)) := by
  intro c
  -- Power-on defers no prescale and schedules nothing, which is where the invariants start.
  have immediate : prescaleDeferred (({} : Registers).global Global.tpr) = false := by decide
  have start : (powerOn config host).cpu.Heeding :=
    ⟨fun deferred => (nomatch immediate.symm.trans deferred), fun _ _ => rfl⟩
  have heeding : c.Heeding :=
    follow_writes (fun idles heeding => heeding.idles idles) (fun {_ d} _ _ _ _ _ => d.reschedule_heeding)
      (fun heeding => heeding.timerExpired) (fun _ {c} _ => c.reset_heeding) (writesOnly_all moves _)
      start
  refine ⟨heeding.reloads, heeding.inhibited, fun b d code value replaces => ?_, fun heeds => ?_⟩
  · have scheduled := replaces.setGlobal
    obtain ⟨deadline, -, cycles⟩ := replaces.kept
    rw [scheduled.deadline, scheduled.callFor, ← deadline, ← cycles]
    exact ⟨reschedule_overlooked, reschedule_heeded⟩
  -- The stronger invariant needs the condition on the writes: one that is overlooked leaves no deadline.
  · have following : c.Following :=
      follow_writes (fun idles following => following.idles idles)
        (fun heeds replaces _ => reschedule_following fun overlooks =>
          replaces.kept.1.trans (heeds _ replaces overlooks))
        (fun following => following.timerExpired) (fun _ {c} _ => c.reset_following) heeds (.inl rfl)
    refine ⟨⟨fun ⟨due, reload⟩ => ?_, heeding.reloads⟩, following⟩
    obtain none | ⟨now, -, called⟩ := following
    · cases none.symm.trans reload
    · exact Timer.called_reload.mp ⟨due, called.symm.trans reload⟩

/-- A machine at power-on. -/
def timed : Machine (DeviceBus FlatMemory) := powerOn Variant.e132t.config {}

/-- The machine is reset and its timer enabled. -/
def timedMoves : List Move := [.host .reset, .host (.setGlobal Global.fcr 0)]

/-- A change of prescale is deferred, and then another is made that is not. -/
def undeferredMoves : List Move :=
  [.host (.setGlobal Global.tpr 0x80000000), .host (.setGlobal Global.tpr 0)]

/-- With nothing pending the reload that was scheduled for the deferral gives way. -/
theorem reload_withdrawn :
    ¬ ∃ due, (timed.follow (timedMoves ++ undeferredMoves)).cpu.timer.deadline = some ⟨due, true⟩ := by
  have heeds : WritesOnly Heeds timed (timedMoves ++ undeferredMoves) := by
    refine writesOnly_cons nofun nofun (writesOnly_cons nofun (fun code value _ => ?_)
      (writesOnly_cons nofun (fun code value _ => ?_)
        (writesOnly_cons nofun (fun code value _ => ?_) trivial)))
    all_goals exact heeds_of_idle (by decide +kernel) code value
  have immediate : prescaleDeferred ((timed.follow
    (timedMoves ++ undeferredMoves)).cpu.regs.global Global.tpr) = false := by decide +kernel
  obtain ⟨-, -, -, follows⟩ := schedule_follows Variant.e132t.config ({} : FlatMemory)
    (timedMoves ++ undeferredMoves)
  obtain ⟨reloads, -⟩ := follows heeds
  exact mt reloads.mp (Bool.eq_false_iff.mp immediate)

/-- With a match pending the reload that was scheduled for the deferral stays scheduled. -/
theorem reload_outlives_deferral :
    let c := (timed.follow (timedMoves ++ .host .timerExpired :: undeferredMoves)).cpu
    prescaleDeferred (c.regs.global Global.tpr) = false ∧ c.timer.deadline = some ⟨6, true⟩ := by
  decide +kernel

end Machine

end E1Machine
