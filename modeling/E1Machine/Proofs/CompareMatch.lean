import E1Machine.Proofs.Changes
import E1Machine.Proofs.Deadlines
import Mathlib.Tactic.Ring

/-!
# The compare match

Ticks are whole periods since the base of the timer, so each begins at a known cycle. The callback that
is scheduled for a compare value comes in the tick that equals it or in the next: a deadline is the start
of that tick, plus how far the tick that runs now has come, plus the rest of a clock. When it comes,
compare value and tick count are less than half the range of a word apart, and the match is made pending.

Main statement: `Timer.compare_deadline`.
-/

namespace E1Machine

namespace Timer

/-! ## Where ticks begin -/

/-- The cycles of a scaled clock. -/
def clockLength (t : Timer) : Nat := 1 <<< t.scale.toNat

/-- The cycles of a tick. -/
def tickLength (t : Timer) : Nat := t.period <<< t.scale.toNat

/-- Whole ticks since the base. -/
def ticksSinceBase (t : Timer) (now : Nat) : Nat := t.clocksSinceBase now / t.period

/-- The cycle at which a tick begins, by its number since the base. -/
def tickStart (t : Timer) (n : Nat) : Nat := t.baseCycle + n * t.tickLength

variable {t : Timer} {now : Nat}

/-- A tick lasts as many clocks as the period says. -/
lemma tickLength_eq (t : Timer) : t.tickLength = t.period * t.clockLength := by
  unfold tickLength clockLength
  rw [Nat.shiftLeft_eq, Nat.shiftLeft_eq, Nat.one_mul]

/-- A clock lasts at least a cycle. -/
lemma clockLength_pos (t : Timer) : 0 < t.clockLength := by
  unfold clockLength
  rw [Nat.one_shiftLeft]
  exact Nat.two_pow_pos _

/-- A period is at least a clock. -/
lemma clockLength_le (positive : 0 < t.period) : t.clockLength ≤ t.tickLength := by
  rw [tickLength_eq]
  exact Nat.le_mul_of_pos_left _ positive

/-- Whole ticks are the quotient of the cycles since the base by the length of a tick. -/
lemma ticksSinceBase_eq (t : Timer) (now : Nat) :
    t.ticksSinceBase now = (now - t.baseCycle) / t.tickLength := by
  unfold ticksSinceBase clocksSinceBase
  rw [tickLength_eq, Nat.shiftRight_eq_div_pow, Nat.div_div_eq_div_mul, Nat.mul_comm]
  unfold clockLength
  rw [Nat.one_shiftLeft]

/-- The count is that of the base and the ticks since then, modulo the size of a word. -/
lemma ticksAt_eq (t : Timer) (now : Nat) :
    t.ticksAt now = t.baseValue + BitVec.ofNat 32 (t.ticksSinceBase now) := rfl

/-- From the start of a tick on, ticks are counted from there. -/
lemma ticksSinceBase_tickStart (positive : 0 < t.period) (n after : Nat) :
    t.ticksSinceBase (t.tickStart n + after) = n + after / t.tickLength := by
  have length : 0 < t.tickLength := Nat.lt_of_lt_of_le t.clockLength_pos (clockLength_le positive)
  have since : t.tickStart n + after - t.baseCycle = after + n * t.tickLength := by
    unfold tickStart
    omega
  rw [ticksSinceBase_eq, since, Nat.add_mul_div_right _ _ length, Nat.add_comm]

/-- A cycle lies in the tick that runs then. -/
lemma tickStart_ticksSinceBase (begun : t.baseCycle ≤ now) :
    now = t.tickStart (t.ticksSinceBase now) + (now - t.baseCycle) % t.tickLength := by
  have split := Nat.div_add_mod' (now - t.baseCycle) t.tickLength
  unfold tickStart
  rw [ticksSinceBase_eq]
  omega

/-- A tick with the count `value` begins at a cycle: it lasts a whole period from there, and it is not the
tick that runs before, unless ticks are counted from there. -/
def TickBegins (t : Timer) (value : Word) (start : Nat) : Prop :=
  (∀ n, start ≤ n → n < start + t.tickLength → t.ticksAt n = value) ∧
    (start = t.baseCycle ∨ t.baseCycle < start ∧ t.ticksAt (start - 1) ≠ value)

/-! ## The tick that equals a compare value -/

/-- The cycle at which the tick that equals a compare value begins: the one that runs, or the next. -/
def matchStart (t : Timer) (now : Nat) (tcr : Word) : Nat :=
  t.tickStart (t.ticksSinceBase now + (tcr - t.ticksAt now).toNat)

/-- From the start of the matching tick on, the count has passed the compare value by whole ticks. -/
lemma ticksAt_matchStart (positive : 0 < t.period) (now : Nat) (tcr : Word) (after : Nat) :
    t.ticksAt (t.matchStart now tcr + after) =
      tcr + BitVec.ofNat 32 (after / t.tickLength) := by
  unfold matchStart
  rw [ticksAt_eq, ticksSinceBase_tickStart positive, BitVec.ofNat_add, BitVec.ofNat_add,
    BitVec.ofNat_toNat, BitVec.setWidth_eq, ← BitVec.add_assoc, ← BitVec.add_assoc, ← ticksAt_eq]
  congr 1
  rw [BitVec.add_comm, BitVec.sub_add_cancel]

/-- The tick that equals the compare value begins where it is looked for. -/
lemma tickBegins_matchStart (positive : 0 < t.period) (now : Nat) (tcr : Word) :
    t.TickBegins tcr (t.matchStart now tcr) := by
  constructor
  · intro n after before
    have within : (n - t.matchStart now tcr) / t.tickLength = 0 :=
      Nat.div_eq_of_lt (by omega)
    have value := ticksAt_matchStart positive now tcr (n - t.matchStart now tcr)
    rw [Nat.add_sub_cancel' after, within] at value
    rw [value]
    exact BitVec.add_zero tcr
  · have length : 0 < t.tickLength := Nat.lt_of_lt_of_le t.clockLength_pos (clockLength_le positive)
    have value := ticksAt_matchStart positive now tcr 0
    unfold matchStart at value ⊢
    generalize t.ticksSinceBase now + (tcr - t.ticksAt now).toNat = number at value ⊢
    cases number with
    | zero =>
      left
      unfold tickStart
      omega
    | succ n =>
      right
      -- The cycle before is the last one of the tick before.
      have last : t.tickStart (n + 1) - 1 = t.tickStart n + (t.tickLength - 1) := by
        unfold tickStart
        rw [Nat.succ_mul]
        omega
      refine ⟨by unfold tickStart; rw [Nat.succ_mul]; omega, ?_⟩
      have whole : (t.tickLength - 1) / t.tickLength = 0 := Nat.div_eq_of_lt (by omega)
      rw [ticksAt_eq, ticksSinceBase_tickStart positive, Nat.zero_div, BitVec.add_zero] at value
      rw [last, ticksAt_eq, ticksSinceBase_tickStart positive, whole, ← value]
      intro same
      bv_omega

/-! ## The schedule for a compare value -/

/-- The matching tick is as many ticks ahead as the compare value, counted from the start of the tick that
runs. -/
lemma matchStart_ahead (begun : t.baseCycle ≤ now) (tcr : Word) :
    now + (tcr - t.ticksAt now).toNat * t.tickLength =
      t.matchStart now tcr + (now - t.baseCycle) % t.tickLength := by
  have here := tickStart_ticksSinceBase begun
  unfold matchStart
  unfold tickStart at here ⊢
  rw [Nat.add_mul]
  omega

/-- Scheduling a callback has no influence on the count. -/
lemma ticksAt_schedule (t : Timer) (now : Nat) (tpr tcr fcr : Word) (n : Nat) :
    (t.schedule now tpr tcr fcr).ticksAt n = t.ticksAt n := by
  obtain ⟨deadline, scheduled⟩ := t.schedule_changes now tpr tcr fcr
  rw [scheduled]
  rfl

/-- The horizon lies half the range of the count ahead, and a clock and a cycle more. -/
lemma horizon_eq (t : Timer) : t.horizon = 0x80000000 * t.tickLength + t.clockLength + 1 := by
  unfold horizon tickLength clockLength
  rw [Nat.shiftLeft_eq, Nat.shiftLeft_eq, Nat.shiftLeft_eq, Nat.mul_assoc]

/-- A compare value that lies ahead is scheduled for the end of a clock in its tick or in the next. -/
lemma schedule_ahead {tpr tcr fcr : Word} (immediate : prescaleDeferred tpr = false)
    (enabled : timerInhibited fcr = false) (begun : t.baseCycle ≤ now)
    (fits : now + t.horizon < 0x10000000000000000) (ahead : tcr - t.ticksAt now ≤ 0x80000000#32) :
    (t.schedule now tpr tcr fcr).deadline =
      some ⟨t.matchStart now tcr + ((now - t.baseCycle) % t.tickLength + t.cyclesIntoClock now),
        false⟩ := by
  have shifted : ((tcr - t.ticksAt now).toNat * t.period) <<< t.scale.toNat =
      (tcr - t.ticksAt now).toNat * t.tickLength := by
    unfold tickLength
    rw [Nat.shiftLeft_eq, Nat.shiftLeft_eq, Nat.mul_assoc]
  have most : (tcr - t.ticksAt now).toNat * t.tickLength ≤ 0x80000000 * t.tickLength :=
    Nat.mul_le_mul_right _ ahead
  have clock : t.cyclesIntoClock now ≤ t.clockLength := t.cyclesIntoClock_le now
  have start := matchStart_ahead begun tcr
  -- With enough room the deadline does not go round, and its cycles are counted from the matching tick.
  rw [horizon_eq] at fits
  unfold schedule
  dsimp only
  rw [immediate, enabled, if_neg Bool.false_ne_true, if_neg Bool.false_ne_true,
    if_neg (BitVec.not_lt.mpr ahead), shifted]
  unfold callAt
  rw [Nat.mod_eq_of_lt (by omega), ← Nat.add_assoc, start, Nat.add_assoc]

/-- A compare value that lies behind is due at once, unless a match is pending. -/
lemma schedule_behind {tpr tcr fcr : Word} (immediate : prescaleDeferred tpr = false)
    (enabled : timerInhibited fcr = false) (fits : now < 0x10000000000000000)
    (behind : 0x80000000#32 < tcr - t.ticksAt now) (idle : t.pending = false) :
    (t.schedule now tpr tcr fcr).deadline = some ⟨now, false⟩ := by
  unfold schedule
  dsimp only
  rw [immediate, enabled, if_neg Bool.false_ne_true, if_neg Bool.false_ne_true, if_pos behind, idle,
    if_neg Bool.false_ne_true]
  unfold callAt
  rw [Nat.mod_eq_of_lt fits]

end Timer

/-! ## The callback for a compare value -/

namespace Cpu

/-- The callback makes the match pending, and schedules none, when the count has passed the compare value
by less than half the range of a word. -/
lemma timerExpired_latches {c : Cpu} {due : Nat} (scheduled : c.timer.deadline = some ⟨due, false⟩)
    (passed : (c.timer.ticksAt c.cycles - c.regs.global Global.tcr).msb = false) :
    c.timerExpired = { c with timer := { c.timer with deadline := none, pending := true } } := by
  unfold timerExpired Timer.takeDeadline
  rw [scheduled]
  exact if_neg (Bool.eq_false_iff.mp passed)

end Cpu

namespace Timer

/-- When the callback for a compare value comes. The match lies ahead by at most half the range of a word:
it comes after the start of the tick that equals the value, at most a tick and a clock later, and makes the
match pending then and for nearly half the range from there. The match lies behind: it comes at once. -/
theorem compare_deadline {t : Timer} {now : Nat} (tpr tcr fcr : Word) (period : 2 ≤ t.period)
    (begun : t.baseCycle ≤ now) (fits : now + t.horizon < 0x10000000000000000)
    (immediate : prescaleDeferred tpr = false) (enabled : timerInhibited fcr = false) :
    (tcr - t.ticksAt now ≤ 0x80000000#32 →
      ∃ due, (t.schedule now tpr tcr fcr).deadline = some ⟨due, false⟩ ∧
        t.TickBegins tcr (t.matchStart now tcr) ∧
        t.matchStart now tcr ≤ now + (tcr - t.ticksAt now).toNat * t.tickLength ∧
        now + (tcr - t.ticksAt now).toNat * t.tickLength < t.matchStart now tcr + t.tickLength ∧
        t.matchStart now tcr < due ∧ due ≤ t.matchStart now tcr + t.tickLength + t.clockLength ∧
        (t.ticksAt due = tcr ∨ t.ticksAt due = tcr + 1) ∧
        ∀ c : Cpu, c.timer = t.schedule now tpr tcr fcr → c.regs.global Global.tcr = tcr →
          due ≤ c.cycles → c.cycles ≤ due + 0x7ffffffe * t.tickLength →
          c.timerExpired =
            { c with timer := { c.timer with deadline := none, pending := true } }) ∧
    (0x80000000#32 < tcr - t.ticksAt now → t.pending = false →
      (t.schedule now tpr tcr fcr).deadline = some ⟨now, false⟩ ∧
        ∀ c : Cpu, c.timer = t.schedule now tpr tcr fcr → c.regs.global Global.tcr = tcr →
          c.cycles = now →
          c.timerExpired =
            { c with timer := { c.timer with deadline := none, pending := true } }) := by
  have positive : 0 < t.period := by omega
  -- A tick has at least two clocks, so a tick and a clock are over before two ticks are.
  have clock : 2 * t.clockLength ≤ t.tickLength := by
    rw [tickLength_eq]
    exact Nat.mul_le_mul_right _ period
  have started := t.clockLength_pos
  constructor
  · intro ahead
    have scheduled := schedule_ahead immediate enabled begun fits ahead
    have start := matchStart_ahead begun tcr
    have within : (now - t.baseCycle) % t.tickLength < t.tickLength := Nat.mod_lt _ (by omega)
    have into : 0 < t.cyclesIntoClock now := t.cyclesIntoClock_pos now
    have rest : t.cyclesIntoClock now ≤ t.clockLength := t.cyclesIntoClock_le now
    generalize eq : (now - t.baseCycle) % t.tickLength + t.cyclesIntoClock now = after at scheduled
    refine ⟨_, scheduled, tickBegins_matchStart positive now tcr, by omega, by omega, by omega,
      by omega, ?_, ?_⟩
    · rw [ticksAt_matchStart positive]
      have ticks : after / t.tickLength < 2 := Nat.div_lt_of_lt_mul (by omega)
      obtain none | one := Nat.le_one_iff_eq_zero_or_eq_one.mp (Nat.le_of_lt_succ ticks)
      · left
        rw [none]
        exact BitVec.add_zero tcr
      · right
        rw [one]
        rfl
    · intro c timer compare reached soon
      apply Cpu.timerExpired_latches (timer ▸ scheduled)
      obtain ⟨later, cycles⟩ := Nat.exists_eq_add_of_le reached
      rw [timer, ticksAt_schedule, compare, cycles, Nat.add_assoc, ticksAt_matchStart positive]
      have ticks : (after + later) / t.tickLength < 0x80000000 :=
        Nat.div_lt_of_lt_mul (by omega)
      rw [BitVec.add_comm, BitVec.add_sub_cancel, BitVec.msb_eq_false_iff_two_mul_lt,
        BitVec.toNat_ofNat, Nat.mod_eq_of_lt (by omega)]
      omega
  · intro behind idle
    have scheduled := schedule_behind immediate enabled (by omega) behind idle
    refine ⟨scheduled, ?_⟩
    intro c timer compare cycles
    apply Cpu.timerExpired_latches (timer ▸ scheduled)
    rw [timer, ticksAt_schedule, compare, cycles, BitVec.msb_eq_false_iff_two_mul_lt]
    bv_omega

/-- A timer that is in its third tick at cycle 150, with the count 0. -/
def wrappedTimer : Timer where
  scaleMask := 7
  baseCycle := 100
  baseValue := 0xfffffffe
  period := 6
  scale := 2

/-- A processor at cycle 230, whose compare value was scheduled at cycle 150. -/
def comparing (tcr : Word) : Cpu :=
  { (Cpu.powerOn Variant.e132t.config).store Global.tcr tcr with
    cycles := 230
    timer := wrappedTimer.schedule 150 0 tcr 0 }

/-- The compare value 3 is scheduled for cycle 224, the second of the tick that begins at 220, and the
match is made pending ten cycles after that. The compare value `0xfffffff0` lies behind. -/
theorem wrappedTimer_deadlines :
    wrappedTimer.TickBegins 3 220 ∧ (wrappedTimer.schedule 150 0 3 0).deadline = some ⟨224, false⟩ ∧
    (comparing 3).timerExpired.timer.pending = true ∧
    (wrappedTimer.schedule 150 0 0xfffffff0 0).deadline = some ⟨150, false⟩ := by
  have period : 2 ≤ wrappedTimer.period := by decide
  have begun : wrappedTimer.baseCycle ≤ 150 := by decide
  have fits : 150 + wrappedTimer.horizon < 0x10000000000000000 := by decide
  obtain ⟨three, -⟩ := compare_deadline 0 3 0 period begun fits rfl rfl
  obtain ⟨-, behind⟩ := compare_deadline 0 0xfffffff0 0 period begun fits rfl rfl
  obtain ⟨due, scheduled, begins, -, -, -, -, -, latches⟩ := three (by decide)
  have at224 : (wrappedTimer.schedule 150 0 3 0).deadline = some ⟨224, false⟩ := by decide
  obtain rfl : due = 224 := by
    rw [at224] at scheduled
    cases scheduled
    rfl
  have start : wrappedTimer.matchStart 150 3 = 220 := by decide
  rw [start] at begins
  refine ⟨begins, at224, ?_, (behind (by decide) rfl).1⟩
  rw [latches (comparing 3) rfl (by decide) (by decide) (by decide)]

end Timer

end E1Machine
