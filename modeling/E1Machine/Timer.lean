import E1Machine.Word

/-!
# The tick timer

The timer counts ticks of a prescaled clock and schedules callbacks. It keeps no time of its own: each
operation is told the current cycle, and `Timer.deadline` says when it wants to be called next. The
tick count is a base value, taken at a base cycle, plus the whole ticks since then.

Main statements: `ticksAt_rebase` and `ticksAt_setPrescale` say that after a write, and after a change
of prescale, the count at that cycle is the written value and the earlier count.
-/

namespace E1Machine

/-- A scheduled callback. -/
structure Deadline where
  /-- The cycle at which it is due. -/
  atCycle : Nat
  /-- Whether it first applies a deferred change of prescale. -/
  reloadPrescale : Bool
  deriving DecidableEq, Repr

/-- The timer. -/
structure Timer where
  /-- Which bits of the clock-scale field the device implements. -/
  scaleMask : Word
  /-- The cycle at which the tick base was last set. -/
  baseCycle : Nat := 0
  /-- The tick count at that cycle. -/
  baseValue : Word := 0
  /-- The tick period in scaled clocks. -/
  period : Nat := 2
  /-- The number of times a clock is doubled: a scaled clock lasts `2 ^ scale` cycles. -/
  scale : BitVec 5 := 0
  /-- Whether a compare match waits for recognition. -/
  pending : Bool := false
  /-- The scheduled callback. -/
  deadline : Option Deadline := none
  deriving DecidableEq, Repr

/-- The bit of a prescaler value that defers its effect to the next tick. -/
def prescaleDeferred (tpr : Word) : Bool := tpr.getLsbD 31

/-- A prescaler value without its deferral bit. -/
def clearDeferral (tpr : Word) : Word := tpr &&& 0x7fffffff

/-- The bit of the function control register that inhibits the timer interrupt. -/
def timerInhibited (fcr : Word) : Bool := fcr.getLsbD 23

namespace Timer

/-- Restores the tick period that reset gives. -/
def resetPeriod (t : Timer) : Timer := { t with period := 2 }

/-- Whole scaled clocks since the base. -/
def clocksSinceBase (t : Timer) (now : Nat) : Nat := (now - t.baseCycle) >>> t.scale.toNat

/-- The tick count at a cycle. -/
def ticksAt (t : Timer) (now : Nat) : Word :=
  t.baseValue + BitVec.ofNat 32 (t.clocksSinceBase now / t.period)

/-- Sets the tick count, from the given cycle on. -/
def rebase (t : Timer) (now : Nat) (value : Word) : Timer :=
  { t with baseValue := value, baseCycle := now }

/-- Applies the scale and period fields of a prescaler value. The tick count is taken under the old
prescale before the base moves, so no tick is lost or repeated. -/
def setPrescale (t : Timer) (now : Nat) (tpr : Word) : Timer :=
  { t with
    baseValue := t.ticksAt now
    baseCycle := now
    scale := tpr.extractLsb' 26 5 &&& t.scaleMask.setWidth 5
    period := (tpr.extractLsb' 16 8).toNat + 2 }

/-- Removes the scheduled callback. -/
def takeDeadline (t : Timer) : Option Deadline × Timer := (t.deadline, { t with deadline := none })

/-- Cycles into the scaled clock that runs at `now`; a whole clock when one starts just then. -/
def cyclesIntoClock (t : Timer) (now : Nat) : Nat :=
  let since := now - t.baseCycle
  let into := since - (t.clocksSinceBase now <<< t.scale.toNat)
  if into = 0 then 1 <<< t.scale.toNat else into

/-- Replaces the scheduled callback. Deadlines have sixty-four bits. -/
def callAt (t : Timer) (cycle : Nat) (reloadPrescale : Bool) : Timer :=
  { t with deadline := some ⟨cycle % 0x10000000000000000, reloadPrescale⟩ }

/-- Schedules the callback that the register values call for: the next tick when a prescale change is
deferred; else the compare match, unless it is inhibited. A match that lies in the past is due at once,
and leaves the schedule alone when one is already pending. -/
def schedule (t : Timer) (now : Nat) (tpr tcr fcr : Word) : Timer :=
  let into := t.cyclesIntoClock now
  if prescaleDeferred tpr then
    let clocksToTick := t.period - t.clocksSinceBase now % t.period
    t.callAt (now + ((clocksToTick <<< t.scale.toNat) + into) + 1) true
  else if timerInhibited fcr then
    { t with deadline := none }
  else
    let ahead := tcr - t.ticksAt now
    if 0x80000000#32 < ahead then
      if t.pending then t else t.callAt now false
    else
      t.callAt (now + (((ahead.toNat * t.period) <<< t.scale.toNat) + into)) false

/-- Scheduling replaces the callback, and nothing else. -/
theorem schedule_changes (t : Timer) (now : Nat) (tpr tcr fcr : Word) :
    ∃ deadline, t.schedule now tpr tcr fcr = { t with deadline := deadline } := by
  unfold schedule
  dsimp only
  split
  · exact ⟨_, rfl⟩
  · split
    · exact ⟨_, rfl⟩
    · split
      · split <;> exact ⟨_, rfl⟩
      · exact ⟨_, rfl⟩

/-- From a new base on the count starts with the value given. -/
theorem ticksAt_rebase (t : Timer) (now : Nat) (value : Word) :
    (t.rebase now value).ticksAt now = value := by
  simp [rebase, ticksAt, clocksSinceBase]

/-- A change of prescale keeps the count of its cycle. -/
theorem ticksAt_setPrescale (t : Timer) (now : Nat) (tpr : Word) :
    (t.setPrescale now tpr).ticksAt now = t.ticksAt now := by
  simp [setPrescale, ticksAt, clocksSinceBase]

end Timer

end E1Machine
