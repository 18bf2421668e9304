import E1Machine.Proofs.Recognition
import E1Machine.Proofs.Runs

/-!
# The timer during a run

A run cuts each slice at the deadline that is known before it, and serves the timer in between. So a
slice starts with no callback due, and its instructions start on time as long as the deadline does not
move into the slice and the slice has something left. What the cut does not foresee is a deadline that an
instruction of the slice brings forward (`deadline_overtaken`), and an interrupt that is taken when the
slice opens and uses it up.

Main statement: `Machine.timer_served_on_time`.
-/

namespace E1Machine

/-! ## Schedules -/

namespace Timer

/-- More cycles than a schedule can lie ahead, unless the compare match has just been missed. -/
def horizon (t : Timer) : Nat :=
  ((0x80000000 * t.period) <<< t.scale.toNat) + (1 <<< t.scale.toNat) + 1

/-- The next clock never begins at once. -/
lemma cyclesIntoClock_pos (t : Timer) (now : Nat) : 0 < t.cyclesIntoClock now := by
  unfold cyclesIntoClock
  dsimp only
  split
  · exact (Nat.one_shiftLeft _).symm ▸ Nat.two_pow_pos _
  · omega

/-- A scaled clock is over after its cycles. -/
lemma cyclesIntoClock_le (t : Timer) (now : Nat) : t.cyclesIntoClock now ≤ 1 <<< t.scale.toNat := by
  unfold cyclesIntoClock clocksSinceBase
  dsimp only
  split
  · exact Nat.le_refl _
  · rw [Nat.shiftLeft_eq, Nat.shiftRight_eq_div_pow, Nat.mul_comm, ← Nat.mod_eq_sub_mul_div,
      Nat.shiftLeft_eq, Nat.one_mul]
    exact Nat.le_of_lt (Nat.mod_lt _ (Nat.two_pow_pos _))

/-- A callback at a cycle that fits its sixty-four bits comes at that cycle. -/
lemma callAt_later {t : Timer} {now cycle : Nat} {reloadPrescale : Bool} (later : now < cycle)
    (fits : cycle < 0x10000000000000000) {deadline : Deadline}
    (scheduled : (t.callAt cycle reloadPrescale).deadline = some deadline) :
    now < deadline.atCycle := by
  cases scheduled
  show now < cycle % 0x10000000000000000
  rw [Nat.mod_eq_of_lt fits]
  exact later

/-- A schedule that is made at some cycle lies after it if the compare match is not missed and the cycle
of the callback fits. -/
lemma schedule_later {t : Timer} {now : Nat} {tpr tcr fcr : Word}
    (ahead : ¬ 0x80000000#32 < tcr - t.ticksAt now) (fits : now + t.horizon < 0x10000000000000000)
    {deadline : Deadline} (scheduled : (t.schedule now tpr tcr fcr).deadline = some deadline) :
    now < deadline.atCycle := by
  have positive := t.cyclesIntoClock_pos now
  have clock := t.cyclesIntoClock_le now
  -- Each kind of deadline waits for so many clocks at most, which the cycle counter can still hold.
  have within {clocks : Nat} (most : clocks ≤ 0x80000000 * t.period) :
      now + (clocks <<< t.scale.toNat + t.cyclesIntoClock now) + 1 < 0x10000000000000000 := by
    have shifted : clocks <<< t.scale.toNat ≤ (0x80000000 * t.period) <<< t.scale.toNat := by
      rw [Nat.shiftLeft_eq, Nat.shiftLeft_eq]
      exact Nat.mul_le_mul_right _ most
    unfold horizon at fits
    omega
  unfold schedule at scheduled
  dsimp only at scheduled
  split at scheduled
  · exact callAt_later (Nat.lt_succ_of_le (Nat.le_add_right _ _)) (within (by omega)) scheduled
  · split at scheduled
    · cases scheduled
    · have ticks : (tcr - t.ticksAt now).toNat ≤ 0x80000000 := BitVec.not_lt.mp ahead
      have fitting := within (Nat.mul_le_mul_right t.period ticks)
      exact callAt_later (Nat.lt_add_of_pos_right (Nat.add_pos_right _ positive))
        (Nat.lt_of_succ_lt fitting) scheduled

end Timer

/-! ## The callback -/

namespace Cpu

/-- No callback of the timer is due. -/
def OnTime (c : Cpu) : Prop := ∀ due, c.nextDeadline = some due → c.cycles < due

/-- A schedule that the callback makes is for later. -/
lemma reschedule_onTime {c : Cpu} (before : (c.timer.ticksAt c.cycles - c.regs.global Global.tcr).msb)
    (fits : c.cycles + c.reschedule.timer.horizon < 0x10000000000000000) : c.reschedule.OnTime := by
  have ahead : ¬ 0x80000000#32 < c.regs.global Global.tcr - c.timer.ticksAt c.cycles := by
    rw [BitVec.msb_eq_decide, decide_eq_true_iff, BitVec.toNat_sub] at before
    rw [BitVec.lt_def, BitVec.toNat_sub]
    have := (c.timer.ticksAt c.cycles).isLt
    have := (c.regs.global Global.tcr).isLt
    simp only [BitVec.toNat_ofNat]
    omega
  have unscaled : c.reschedule.timer.horizon = c.timer.horizon := by
    obtain ⟨deadline, scheduled⟩ := c.reschedule_changes
    rw [scheduled]
    rfl
  rw [unscaled] at fits
  intro due eq
  obtain ⟨next, found, rfl⟩ := Option.map_eq_some_iff.mp eq
  exact Timer.schedule_later ahead fits found

/-- The callback takes the deadline. It schedules another if the compare match still lies ahead, and else
makes the match pending. -/
lemma timerExpired_cases {c : Cpu} {due : Nat} (next : c.nextDeadline = some due) :
    ∃ d : Cpu, d.cycles = c.cycles ∧ d.timer.deadline = none ∧
      ((d.timer.ticksAt d.cycles - d.regs.global Global.tcr).msb = true ∧
          c.timerExpired = d.reschedule ∨
        c.timerExpired = { d with timer := { d.timer with pending := true } }) := by
  obtain ⟨deadline, found, -⟩ := Option.map_eq_some_iff.mp next
  unfold timerExpired Timer.takeDeadline
  rw [found]
  dsimp only
  -- A deferred change of prescale comes first.
  generalize applied : (if deadline.reloadPrescale then _ else _) = d
  refine ⟨d, ?_, ?_, ?_⟩
  · rw [← applied]
    split <;> rfl
  · rw [← applied]
    split <;> rfl
  · split
    · next ahead => exact .inl ⟨ahead, rfl⟩
    · exact .inr rfl

/-- After the timer is served no callback is due. -/
theorem serviceTimer_onTime {c : Cpu}
    (fits : c.cycles + c.serviceTimer.timer.horizon < 0x10000000000000000) : c.serviceTimer.OnTime := by
  unfold serviceTimer at fits ⊢
  cases next : c.nextDeadline with
  | none => exact fun due scheduled => nomatch next.symm.trans scheduled
  | some due =>
    rw [next] at fits
    dsimp only at fits ⊢
    by_cases reached : due ≤ c.cycles
    · rw [if_pos reached] at fits ⊢
      -- The callback leaves either a new deadline, made now, or none.
      obtain ⟨d, cycles, taken, ⟨ahead, again⟩ | latched⟩ := timerExpired_cases next
      · rw [again] at fits ⊢
        rw [← cycles] at fits
        exact reschedule_onTime ahead fits
      · rw [latched]
        intro due scheduled
        unfold nextDeadline at scheduled
        rw [taken] at scheduled
        cases scheduled
    · rw [if_neg reached]
      intro due' scheduled
      cases next.symm.trans scheduled
      exact Nat.not_le.mp reached

end Cpu

namespace Machine

variable {β : Type} [Bus β]

/-- No slice of a run starts with a callback due. -/
lemma Cuts.onTime {stop : Nat} {m s : Machine β} (cuts : Cuts stop m s)
    (fits : s.cpu.cycles + s.cpu.timer.horizon < 0x10000000000000000) : s.cpu.OnTime := by
  obtain ⟨r, -, -, rfl⟩ := cuts
  rw [r.served_kept.1] at fits
  exact Cpu.serviceTimer_onTime fits

/-- The deadline has moved since the slice started, to a cycle before the end at which it was cut. -/
def Overtakes (stop : Nat) (s b : Machine β) : Prop :=
  b.cpu.nextDeadline ≠ s.cpu.nextDeadline ∧
    ∃ due, b.cpu.nextDeadline = some due ∧ due < s.cpu.cycles + s.cpu.sliceBudget stop

/-- The instructions of a slice that starts on time do so too, as long as it has something left and the
deadline has not moved into it. -/
lemma Visits.onTime {stop : Nat} {s b : Machine β} (visits : Visits (s.cpu.sliceBudget stop) s b)
    (ready : s.cpu.OnTime) (left : 0 < b.cpu.remaining) (stays : ¬ Overtakes stop s b) :
    b.cpu.OnTime := by
  intro due next
  have account : b.cpu.account = _ :=
    Continues.lasting (Cpu.account_lasting _) visits (opened_account _ s)
  unfold Cpu.account at account
  have cut : s.cpu.cycles + s.cpu.sliceBudget stop ≤ due := by
    by_cases same : b.cpu.nextDeadline = s.cpu.nextDeadline
    · rw [same] at next
      have before := ready due next
      unfold Cpu.sliceBudget
      rw [next]
      dsimp only
      rw [if_pos before]
      omega
    · exact Nat.not_lt.mp fun inside => stays ⟨same, due, next, inside⟩
  omega

/-- What the cut of a slice does not foresee at a boundary: the deadline has moved into the slice, the
interrupt at its start has used it up, or it started with a callback due. -/
def Unforeseen (stop : Nat) (s b : Machine β) : Prop :=
  Overtakes stop s b ∨ b.cpu.remaining ≤ 0 ∨ ¬ s.cpu.OnTime

/-- Where a run serves the timer on time: no instruction starts with a callback due unless something is
unforeseen there. No slice starts with a callback due, and no run that completes leaves one due, until the
cycle count comes near the end of its sixty-four bits. -/
theorem timer_served_on_time (m : Machine β) (cycles : Nat) :
    (∀ s b, Instructs (m.runEnd cycles) m s b → ¬ Unforeseen (m.runEnd cycles) s b →
      b.cpu.OnTime) ∧
    (∀ s, Cuts (m.runEnd cycles) m s →
      s.cpu.cycles + s.cpu.timer.horizon < 0x10000000000000000 → s.cpu.OnTime) ∧
    ∀ outcome m', (run cycles).run m = (.ok outcome, m') →
      m'.cpu.cycles + m'.cpu.timer.horizon < 0x10000000000000000 → m'.cpu.OnTime := by
  refine ⟨fun s b instructs foreseen => ?_, fun s => Cuts.onTime, fun outcome m' ran fits => ?_⟩
  · obtain ⟨-, -, visits⟩ := instructs
    obtain ⟨stays, left, ready⟩ : ¬ Overtakes (m.runEnd cycles) s b ∧ 0 < b.cpu.remaining ∧
        s.cpu.OnTime := by
      simpa [Unforeseen] using foreseen
    exact visits.onTime ready left stays
  · obtain ⟨r, rfl⟩ := run_served ran
    rw [r.served_kept.1] at fits
    exact Cpu.serviceTimer_onTime fits

/-- A program that enables the timer with its second instruction, and moves the compare value with its
fourth. -/
def comparedProgram : FlatMemory :=
  ({} : FlatMemory).loadHalves 0xfffffff8 [0x7914, 0x64a0, 0x7914, 0x6566]

/-- The machine that a reset prepares for the program. -/
def beforeCompared : Machine (DeviceBus FlatMemory) :=
  (powerOn Variant.e132t.config comparedProgram).move (.host .reset)

/-- The third instruction starts at cycle 4 although the callback is due since cycle 3. The fourth moves
the compare value, and the match is never made pending. -/
theorem deadline_overtaken :
    (∃ s b, Instructs (beforeCompared.runEnd 4) beforeCompared s b ∧ b.cpu.cycles = 4 ∧
      b.cpu.nextDeadline = some 3 ∧ ¬ b.cpu.OnTime) ∧
    ((run 4).run beforeCompared).2.cpu.timer.pending = false := by
  refine ⟨?_, by decide +kernel⟩
  let first := opened (beforeCompared.served.cpu.sliceBudget (beforeCompared.runEnd 4))
    beforeCompared.served
  let second := (executeOne.run first).2
  let third := (executeOne.run second).2
  have one : Continues first second := continues_of_ok (by decide +kernel) (by decide +kernel)
  have two : Continues second third := continues_of_ok (by decide +kernel) (by decide +kernel)
  have cycles : third.cpu.cycles = 4 := by decide +kernel
  have due : third.cpu.nextDeadline = some 3 := by decide +kernel
  have cuts : Cuts (beforeCompared.runEnd 4) beforeCompared beforeCompared.served :=
    ⟨beforeCompared, .refl, by decide +kernel, rfl⟩
  have instructs : Instructs (beforeCompared.runEnd 4) beforeCompared beforeCompared.served third :=
    ⟨cuts, by decide +kernel, .head one (.single two)⟩
  refine ⟨beforeCompared.served, third, instructs, cycles, due, ?_⟩
  intro onTime
  have late := onTime 3 due
  omega

end Machine

end E1Machine
