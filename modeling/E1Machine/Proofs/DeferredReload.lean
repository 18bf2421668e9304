import E1Machine.Proofs.Rewrites
import Mathlib.Tactic.Ring

/-!
# Deferred changes of prescale

A prescaler value with its deferral bit set takes effect after the next tick has begun. The deadline of the reload
is counted in whole clocks to that tick, to which the part of the clock that has passed is added, or a whole clock
where none has passed, and one more cycle. So the reload comes behind the start of the tick, by a tick at most
(`Timer.schedule_reload`).

Main statement: `Timer.reload_late`.
-/

namespace E1Machine

namespace Timer

/-- The first cycle after `now` at which the tick count is another one. -/
def NextTick (t : Timer) (now cycle : Nat) : Prop :=
  now < cycle ∧ (∀ n < cycle, now ≤ n → t.ticksAt n = t.ticksAt now) ∧ t.ticksAt cycle ≠ t.ticksAt now

/-- The next tick can be decided, since only the cycles before it are to be compared. -/
instance (t : Timer) (now cycle : Nat) : Decidable (t.NextTick now cycle) :=
  inferInstanceAs (Decidable (_ ∧ _ ∧ _))

/-- How many cycles of the scaled clock that runs have passed. -/
def intoClock (t : Timer) (now : Nat) : Nat := (now - t.baseCycle) % t.clockLength

/-- By how much a reload that is scheduled at a cycle comes behind the start of the next tick. -/
def reloadDelay (t : Timer) (now : Nat) : Nat :=
  if t.intoClock now = 0 then t.clockLength + 1 else 2 * t.intoClock now + 1

variable {t : Timer} {now cycle : Nat}

/-! ## The next tick -/

/-- The tick after the one that runs begins at the next change of the count. -/
lemma nextTick_tickStart (positive : 0 < t.period) (begun : t.baseCycle ≤ now) :
    t.NextTick now (t.tickStart (t.ticksSinceBase now + 1)) := by
  have length : 0 < t.tickLength := Nat.lt_of_lt_of_le t.clockLength_pos (clockLength_le positive)
  have here := tickStart_ticksSinceBase begun
  have inside : (now - t.baseCycle) % t.tickLength < t.tickLength := Nat.mod_lt _ length
  have next : t.tickStart (t.ticksSinceBase now + 1) = t.tickStart (t.ticksSinceBase now) + t.tickLength := by
    unfold tickStart
    rw [Nat.succ_mul, Nat.add_assoc]
  refine ⟨by omega, fun n before after => ?_, ?_⟩
  · -- The cycle lies in the tick that runs.
    obtain ⟨part, rfl⟩ := Nat.exists_eq_add_of_le (show t.tickStart (t.ticksSinceBase now) ≤ n by omega)
    have whole : part / t.tickLength = 0 := Nat.div_eq_of_lt (by omega)
    rw [ticksAt_eq, ticksSinceBase_tickStart positive, whole]
    rfl
  · have first := ticksSinceBase_tickStart positive (t.ticksSinceBase now + 1) 0
    rw [Nat.zero_div, Nat.add_zero, Nat.add_zero] at first
    rw [ticksAt_eq, ticksAt_eq, first]
    intro same
    bv_omega

/-- There is one next tick. -/
lemma NextTick.unique {cycle' : Nat} (next : t.NextTick now cycle) (next' : t.NextTick now cycle') :
    cycle = cycle' := by
  obtain ⟨after, same, differs⟩ := next
  obtain ⟨after', same', differs'⟩ := next'
  obtain less | equal | greater := Nat.lt_trichotomy cycle cycle'
  · exact absurd (same' cycle less (Nat.le_of_lt after)) differs
  · exact equal
  · exact absurd (same cycle' greater (Nat.le_of_lt after')) differs'

/-! ## The deadline of a reload -/

/-- Whole clocks are the quotient of the cycles since the base by the length of a clock. -/
lemma clocksSinceBase_eq (t : Timer) (now : Nat) :
    t.clocksSinceBase now = (now - t.baseCycle) / t.clockLength := by
  unfold clocksSinceBase clockLength
  rw [Nat.shiftRight_eq_div_pow, Nat.one_shiftLeft]

/-- Where no part of a clock has passed, a whole clock counts as passed. -/
lemma cyclesIntoClock_eq_intoClock (t : Timer) (now : Nat) :
    t.cyclesIntoClock now = if t.intoClock now = 0 then t.clockLength else t.intoClock now := by
  have part : now - t.baseCycle - (t.clocksSinceBase now <<< t.scale.toNat) = t.intoClock now := by
    have split := Nat.div_add_mod' (now - t.baseCycle) t.clockLength
    have length : t.clocksSinceBase now <<< t.scale.toNat = t.clocksSinceBase now * t.clockLength := by
      unfold clockLength
      rw [Nat.shiftLeft_eq, Nat.one_shiftLeft]
    rw [length, clocksSinceBase_eq]
    unfold intoClock
    omega
  unfold cyclesIntoClock
  dsimp only
  rw [part]
  rfl

/-- The clocks to the next tick, counted from now, reach beyond it by the part of the clock that has passed. -/
lemma clocks_to_tick (positive : 0 < t.period) (begun : t.baseCycle ≤ now) :
    now + (t.period - t.clocksSinceBase now % t.period) * t.clockLength =
      t.tickStart (t.ticksSinceBase now + 1) + t.intoClock now := by
  -- The cycle is split into ticks, clocks and the part of a clock, which are then put together again.
  have inClock := Nat.div_add_mod' (now - t.baseCycle) t.clockLength
  have inTick := Nat.div_add_mod' (t.clocksSinceBase now) t.period
  obtain ⟨rest, tick⟩ := Nat.exists_eq_add_of_lt (Nat.mod_lt (t.clocksSinceBase now) positive)
  rw [← clocksSinceBase_eq] at inClock
  unfold tickStart ticksSinceBase intoClock
  rw [tickLength_eq]
  generalize t.clocksSinceBase now % t.period = done at *
  generalize t.clocksSinceBase now / t.period = ticks at *
  generalize (now - t.baseCycle) % t.clockLength = part at *
  have left : t.period - done = rest + 1 := by omega
  have elapsed : now = t.baseCycle + (t.clocksSinceBase now * t.clockLength + part) := by omega
  rw [left]
  calc now + (rest + 1) * t.clockLength
      = t.baseCycle + (ticks * t.period + done + (rest + 1)) * t.clockLength + part := by
        rw [inTick]
        nth_rewrite 1 [elapsed]
        ring
    _ = t.baseCycle + (ticks + 1) * (t.period * t.clockLength) + part := by
        rw [show ticks * t.period + done + (rest + 1) = (ticks + 1) * t.period by rw [Nat.succ_mul]; omega]
        ring

/-- A reload is scheduled for the next tick and its delay. -/
lemma schedule_reload {tpr : Word} (tcr fcr : Word) (deferred : prescaleDeferred tpr = true)
    (positive : 0 < t.period) (begun : t.baseCycle ≤ now) :
    t.schedule now tpr tcr fcr =
      t.callAt (t.tickStart (t.ticksSinceBase now + 1) + t.reloadDelay now) true := by
  have clocks := clocks_to_tick positive begun
  unfold schedule
  dsimp only
  rw [if_pos deferred, Nat.shiftLeft_eq]
  have length : 2 ^ t.scale.toNat = t.clockLength := by
    unfold clockLength
    rw [Nat.one_shiftLeft]
  rw [length]
  congr 1
  rw [← Nat.add_assoc, clocks, cyclesIntoClock_eq_intoClock]
  unfold reloadDelay
  split
  · omega
  · omega

/-- A delay is at most a tick, and that only if a tick has two cycles. -/
lemma reloadDelay_le (period : 2 ≤ t.period) (now : Nat) :
    t.reloadDelay now ≤ t.tickLength ∧ (t.reloadDelay now = t.tickLength ↔ t.tickLength = 2) := by
  have length := t.clockLength_pos
  have clocks : 2 * t.clockLength ≤ t.tickLength := by
    rw [tickLength_eq]
    exact Nat.mul_le_mul_right _ period
  have part : t.intoClock now < t.clockLength := Nat.mod_lt _ length
  unfold reloadDelay
  split <;> omega

/-- A delay is no multiple of the range of deadlines. -/
lemma reloadDelay_small (t : Timer) (now : Nat) :
    0 < t.reloadDelay now ∧ t.reloadDelay now < 0x10000000000000000 := by
  have length := t.clockLength_pos
  have clock : t.clockLength ≤ 2 ^ 31 := by
    unfold clockLength
    rw [Nat.one_shiftLeft]
    exact Nat.pow_le_pow_right (by decide) (Nat.le_of_lt_succ t.scale.isLt)
  have part : t.intoClock now < t.clockLength := Nat.mod_lt _ length
  unfold reloadDelay
  split <;> omega

end Timer

/-- A write that defers a change of prescale only schedules it. -/
lemma Cpu.setGlobal_deferred (c : Cpu) {value : Word} (deferred : prescaleDeferred value = true) :
    (c.setGlobal Global.tpr value).timer =
      c.timer.schedule c.cycles value (c.regs.global Global.tcr) (c.regs.global Global.fcr) := by
  have stored (code : Nat) (other : code % 32 ≠ Global.tpr) :
      (c.store Global.tpr value).regs.global code = c.regs.global code :=
    (Registers.global_setGlobal _ _ _ _).trans (if_neg (Ne.symm other))
  have written : (c.store Global.tpr value).regs.global Global.tpr = value :=
    (Registers.global_setGlobal _ _ _ _).trans (if_pos rfl)
  show (c.writePrescaler value).timer = _
  unfold writePrescaler
  rw [deferred, if_pos rfl]
  unfold reschedule
  rw [written, stored Global.tcr (by decide), stored Global.fcr (by decide)]
  rfl

namespace Timer

/-- A deferred change of prescale takes effect behind the start of the next tick. The reload is scheduled later than
that by its delay: a clock and a cycle if it is scheduled at the start of a clock, and else twice the part of the
clock that has passed and a cycle. That is at most a tick, and just a tick if a tick has two cycles. -/
theorem reload_late {t : Timer} {now : Nat} {tpr : Word} (deferred : prescaleDeferred tpr = true)
    (period : 2 ≤ t.period) (begun : t.baseCycle ≤ now) :
    ∃ next, (∀ cycle, t.NextTick now cycle ↔ cycle = next) ∧
      (∀ tcr fcr, (t.schedule now tpr tcr fcr).deadline =
        some ⟨(next + t.reloadDelay now) % 0x10000000000000000, true⟩) ∧
      (∀ tcr fcr reloads, (t.schedule now tpr tcr fcr).deadline ≠ some ⟨next, reloads⟩) ∧
      (∀ c : Cpu, c.timer = t → c.cycles = now → (c.setGlobal Global.tpr tpr).timer.deadline =
        some ⟨(next + t.reloadDelay now) % 0x10000000000000000, true⟩) ∧
      t.reloadDelay now ≤ t.tickLength ∧ (t.reloadDelay now = t.tickLength ↔ t.tickLength = 2) := by
  have positive : 0 < t.period := by omega
  have next := nextTick_tickStart positive begun
  have scheduled (tcr fcr : Word) := schedule_reload tcr fcr deferred positive begun
  generalize t.tickStart (t.ticksSinceBase now + 1) = boundary at next scheduled
  have deadline (tcr fcr : Word) : (t.schedule now tpr tcr fcr).deadline =
      some ⟨(boundary + t.reloadDelay now) % 0x10000000000000000, true⟩ := by
    rw [scheduled]
    rfl
  refine ⟨boundary, fun cycle => ⟨fun found => found.unique next, fun eq => eq ▸ next⟩, deadline, ?_, ?_,
    reloadDelay_le period now⟩
  · intro tcr fcr reloads onTime
    -- The delay is positive and less than the range of the deadlines, so that no deadline is on time.
    obtain ⟨later, small⟩ := t.reloadDelay_small now
    rw [deadline, Option.some.injEq, Deadline.mk.injEq] at onTime
    omega
  · rintro c rfl rfl
    rw [c.setGlobal_deferred deferred]
    exact deadline _ _

/-- The timer of the compare match is two cycles into a clock at cycle 150, and its next tick begins at 172. A
reload that is deferred then is scheduled for cycle 177. -/
theorem wrappedTimer_reloads :
    wrappedTimer.NextTick 150 172 ∧ (wrappedTimer.schedule 150 0x80000000 0 0).deadline = some ⟨177, true⟩ := by
  have deferred : prescaleDeferred 0x80000000 = true := by decide
  have period : 2 ≤ wrappedTimer.period := by decide
  have begun : wrappedTimer.baseCycle ≤ 150 := by decide
  obtain ⟨next, first, deadline, -⟩ := reload_late deferred period begun
  have begins : wrappedTimer.NextTick 150 172 := by decide +kernel
  obtain rfl := (first 172).mp begins
  refine ⟨begins, (deadline 0 0).trans ?_⟩
  decide

end Timer

namespace Machine

/-- The next tick begins at cycle 4. A change of prescale that is deferred at cycle 3 is scheduled for cycle 6. -/
theorem reload_misses_tick :
    let written := countingCycles.session [.host (.setGlobal Global.tpr 0x8c000000)]
    prescaleDeferred (written.cpu.regs.global Global.tpr) = true ∧ countingCycles.cpu.timer.scale.toNat ≤ 7 ∧
      countingCycles.cpu.timer.baseCycle ≤ countingCycles.cpu.cycles ∧ countingCycles.cpu.cycles = 3 ∧
      countingCycles.cpu.timer.NextTick 3 4 ∧ written.cpu.timer.deadline = some ⟨6, true⟩ ∧
      written.cpu.timer.deadline ≠ some ⟨4, true⟩ := by
  decide +kernel

end Machine

end E1Machine
