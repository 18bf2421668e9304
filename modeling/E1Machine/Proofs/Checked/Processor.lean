import E1Machine.Proofs.Checked.Numbers

/-!
# The checked processor

The timer, the accounts of a slice, the special registers and the entries into handlers, computed with checked
numbers. A machine that runs the processor knows the cycle at which the slice began, its budget and what is left
of it, and makes the current cycle from these whenever the timer asks for it.

All of this succeeds on sound processors: their timer has a scale and a period that a device can have, their
accounts balance, and they are not overdrawn by more than the rest of an instruction leaves room for.
-/

namespace E1Machine

/-! ## The timer -/

/-- The timer of a device: a clock lasts at most 128 cycles, and a tick from 2 to 257 clocks. -/
structure Timer.Regular (t : Timer) : Prop where
  mask : t.scaleMask.toNat ≤ 7
  scale : t.scale.toNat ≤ 7
  least : 2 ≤ t.period
  greatest : t.period ≤ 257

/-- Only the scale and the period matter. -/
lemma Timer.Regular.keep {t u : Timer} (regular : t.Regular) (mask : u.scaleMask = t.scaleMask)
    (scale : u.scale = t.scale) (period : u.period = t.period) : u.Regular where
  mask := by
    rw [mask]
    exact regular.mask
  scale := by
    rw [scale]
    exact regular.scale
  least := by
    rw [period]
    exact regular.least
  greatest := by
    rw [period]
    exact regular.greatest

namespace Checked

/-- The tick count at a cycle, by a shift and a division. -/
def ticksAt (t : Timer) (now : Nat) : Option Word := do
  let scale ← amount 64 t.scale.toNat
  let period ← divisor t.period
  return t.baseValue + BitVec.ofNat 32 ((now - t.baseCycle) >>> scale / period)

/-- The timer under a new prescale, which continues the count. -/
def setPrescale (t : Timer) (now : Nat) (tpr : Word) : Option Timer := do
  let ticks ← ticksAt t now
  let period ← unsigned 32 ((tpr.extractLsb' 16 8).toNat + 2)
  return { t with
    baseValue := ticks
    baseCycle := now
    scale := tpr.extractLsb' 26 5 &&& t.scaleMask.setWidth 5
    period }

/-- Cycles into the scaled clock that runs at a cycle; a whole clock when one starts just then. -/
def cyclesIntoClock (t : Timer) (now : Nat) : Option Nat := do
  let scale ← amount 64 t.scale.toNat
  let since := now - t.baseCycle
  let into ← difference since ((since >>> scale) <<< scale % 2 ^ 64)
  return if into = 0 then 1 <<< scale else into

/-- The timer with the deadline of its next match or reload. -/
def schedule (t : Timer) (now : Nat) (tpr tcr fcr : Word) : Option Timer := do
  let into ← cyclesIntoClock t now
  let scale ← amount 64 t.scale.toNat
  let clocks := (now - t.baseCycle) >>> scale
  if prescaleDeferred tpr then
    let period ← divisor t.period
    let clocksToTick ← difference period (clocks % period)
    let cycles ← unsigned 64 (clocksToTick <<< scale % 2 ^ 64 + into)
    let due ← unsigned 64 (now + cycles)
    let due ← unsigned 64 (due + 1)
    return { t with deadline := some ⟨due, true⟩ }
  else if timerInhibited fcr then
    return { t with deadline := none }
  else
    let period ← divisor t.period
    let ahead := tcr - (t.baseValue + BitVec.ofNat 32 (clocks / period))
    if 0x80000000#32 < ahead then
      return if t.pending then t else { t with deadline := some ⟨now, false⟩ }
    else
      let clocksToMatch ← unsigned 64 (ahead.toNat * period)
      let cycles ← unsigned 64 (clocksToMatch <<< scale % 2 ^ 64 + into)
      let due ← unsigned 64 (now + cycles)
      return { t with deadline := some ⟨due, false⟩ }

section

variable {t : Timer} (regular : t.Regular)
include regular

/-- The tick count of a regular timer is always made. -/
lemma ticksAt_eq (now : Nat) : ticksAt t now = some (t.ticksAt now) := by
  have scale := regular.scale
  have least := regular.least
  exact proceeds (amount_eq (by omega)) (proceeds (divisor_eq (by omega)) rfl)

/-- A regular timer always takes a new prescale, and is regular after it. -/
lemma setPrescale_eq (now : Nat) (tpr : Word) :
    setPrescale t now tpr = some (t.setPrescale now tpr) ∧ (t.setPrescale now tpr).Regular := by
  have field := (tpr.extractLsb' 16 8).isLt
  refine ⟨proceeds (ticksAt_eq regular now) (proceeds (unsigned_eq (by omega)) rfl), ?_⟩
  refine ⟨regular.mask, ?_, Nat.le_add_left _ _, ?_⟩
  · show (tpr.extractLsb' 26 5 &&& t.scaleMask.setWidth 5).toNat ≤ 7
    rw [BitVec.toNat_and, BitVec.toNat_setWidth]
    exact Nat.le_trans Nat.and_le_right (Nat.le_trans (Nat.mod_le _ _) regular.mask)
  · show (tpr.extractLsb' 16 8).toNat + 2 ≤ 257
    omega

/-- At most `most` clocks, shifted into place, last less than `cycles` cycles. -/
lemma shifted_lt {n most cycles : Nat} (few : n ≤ most) (fits : most * 2 ^ 7 < cycles) :
    n <<< t.scale.toNat < cycles := by
  rw [Nat.shiftLeft_eq]
  have clock : 2 ^ t.scale.toNat ≤ 2 ^ 7 := Nat.pow_le_pow_right (by decide) regular.scale
  exact Nat.lt_of_le_of_lt (Nat.mul_le_mul few clock) fits

/-- The cycles into a clock are always made, and are no more than the slowest clock has. -/
lemma cyclesIntoClock_eq {now : Nat} (early : now < 2 ^ 64) :
    cyclesIntoClock t now = some (t.cyclesIntoClock now) ∧ t.cyclesIntoClock now ≤ 2 ^ 7 := by
  have scale := regular.scale
  have clock : 2 ^ t.scale.toNat ≤ 2 ^ 7 := Nat.pow_le_pow_right (by decide) scale
  have positive : 0 < 2 ^ t.scale.toNat := Nat.two_pow_pos _
  have since : now - t.baseCycle < 2 ^ 64 := by omega
  have whole : ((now - t.baseCycle) >>> t.scale.toNat) <<< t.scale.toNat =
      (now - t.baseCycle) / 2 ^ t.scale.toNat * 2 ^ t.scale.toNat := by
    rw [Nat.shiftLeft_eq, Nat.shiftRight_eq_div_pow]
  have parts := Nat.div_add_mod' (now - t.baseCycle) (2 ^ t.scale.toNat)
  have rest := Nat.mod_lt (now - t.baseCycle) positive
  have fits : ((now - t.baseCycle) >>> t.scale.toNat) <<< t.scale.toNat % 2 ^ 64 =
      ((now - t.baseCycle) >>> t.scale.toNat) <<< t.scale.toNat := Nat.mod_eq_of_lt (by omega)
  constructor
  · refine proceeds (amount_eq (by omega)) (proceeds (difference_eq ?_) ?_)
    · omega
    · rw [fits]
      rfl
  · unfold Timer.cyclesIntoClock Timer.clocksSinceBase
    dsimp only
    split
    · rw [Nat.shiftLeft_eq, Nat.one_mul]
      exact clock
    · omega

/-- No deadline is further away than the ticks of half the range of the timer. -/
lemma schedule_eq {now : Nat} (early : now < 2 ^ 63 + 2 ^ 48) (tpr tcr fcr : Word) :
    schedule t now tpr tcr fcr = some (t.schedule now tpr tcr fcr) := by
  have least := regular.least
  have greatest := regular.greatest
  have scale : amount 64 t.scale.toNat = some t.scale.toNat := amount_eq (by have := regular.scale; omega)
  have period : divisor t.period = some t.period := divisor_eq (by omega)
  obtain ⟨into, short⟩ := cyclesIntoClock_eq regular (show now < 2 ^ 64 by omega)
  refine proceeds into (proceeds scale ?_)
  unfold Timer.schedule Timer.callAt
  dsimp only
  split
  · have within := Nat.mod_lt (t.clocksSinceBase now) (show 0 < t.period by omega)
    refine proceeds period (proceeds (difference_eq (Nat.le_of_lt within)) ?_)
    -- a deferred reload waits for one tick at most
    have clocks : (now - t.baseCycle) >>> t.scale.toNat = t.clocksSinceBase now := rfl
    rw [clocks]
    generalize toTick : t.period - t.clocksSinceBase now % t.period = clocksToTick
    have ticking : clocksToTick <<< t.scale.toNat < 2 ^ 16 :=
      shifted_lt regular (show clocksToTick ≤ 257 by omega) (by decide)
    rw [Nat.mod_eq_of_lt (show clocksToTick <<< t.scale.toNat < 2 ^ 64 by omega),
      Nat.mod_eq_of_lt (by omega)]
    exact proceeds (unsigned_eq (by omega)) (proceeds (unsigned_eq (by omega))
      (proceeds (unsigned_eq (by omega)) rfl))
  · split
    · rfl
    · refine proceeds period ?_
      have ticks : t.baseValue + BitVec.ofNat 32 ((now - t.baseCycle) >>> t.scale.toNat / t.period) =
          t.ticksAt now := rfl
      rw [ticks]
      generalize tcr - t.ticksAt now = ahead
      by_cases past : 0x80000000#32 < ahead
      · rw [if_pos past, if_pos past, Nat.mod_eq_of_lt (by omega)]
        rfl
      · rw [if_neg past, if_neg past]
        -- a match that has not passed is at most half the range of the timer away
        have near : ahead.toNat ≤ 2 ^ 31 := Nat.le_of_not_lt past
        have product : ahead.toNat * t.period ≤ 2 ^ 31 * 257 := Nat.mul_le_mul near greatest
        have ticking : (ahead.toNat * t.period) <<< t.scale.toNat < 2 ^ 47 :=
          shifted_lt regular product (by decide)
        have fits := Nat.mod_eq_of_lt (Nat.lt_trans ticking (show 2 ^ 47 < 2 ^ 64 by decide))
        refine proceeds (unsigned_eq (by omega)) ?_
        rw [fits, Nat.mod_eq_of_lt (by omega)]
        exact proceeds (unsigned_eq (by omega)) (proceeds (unsigned_eq (by omega)) rfl)

omit regular in
/-- Scheduling replaces no more than the callback. -/
lemma Timer.Regular.schedule {t : Timer} (regular : t.Regular) (now : Nat) (tpr tcr fcr : Word) :
    (t.schedule now tpr tcr fcr).Regular := by
  obtain ⟨deadline, same⟩ := t.schedule_changes now tpr tcr fcr
  rw [same]
  exact regular.keep rfl rfl rfl

end

/-! ## The accounts of a slice -/

/-- What a machine knows of the slice that runs: the cycle at which it began, and its budget. -/
structure Span where
  /-- The cycle at which the slice began. -/
  start : Nat
  /-- The budget of the slice. -/
  budget : Nat

/-- Between slices there is no budget. -/
def Span.between (c : Cpu) : Span := ⟨c.cycles, 0⟩

/-- The current cycle, from what is left of the budget. -/
def now (span : Span) (c : Cpu) : Option Nat := do
  let spent ← signed 64 (span.budget - c.remaining)
  unsigned 64 (span.start + spent.toNat)

/-- A processor whose timer is regular and whose accounts balance, with room for so many charges. -/
structure Sound (span : Span) (charges : Nat) (c : Cpu) : Prop where
  regular : c.timer.Regular
  balanced : c.cycles + c.remaining = span.start + span.budget
  started : span.start ≤ c.cycles
  early : span.start + span.budget ≤ 2 ^ 63 + 2 ^ 16
  short : span.budget ≤ 2 ^ 62
  room : charges * 4608 ≤ c.remaining + 2 ^ 15

/-- A checked computation that succeeds with a processor, which is sound. -/
structure Gives (span : Span) (charges : Nat) (x : Option Cpu) (c : Cpu) : Prop where
  eq : x = some c
  sound : Sound span charges c

variable {span : Span} {n m : Nat} {c d : Cpu}

/-- Only the timer and the accounts matter. -/
lemma Sound.keep (s : Sound span n c) (regular : d.timer.Regular) (cycles : d.cycles = c.cycles)
    (remaining : d.remaining = c.remaining) : Sound span n d where
  regular
  balanced := by
    rw [cycles, remaining]
    exact s.balanced
  started := by
    rw [cycles]
    exact s.started
  early := s.early
  short := s.short
  room := by
    rw [remaining]
    exact s.room

/-- An update beside the timer and the accounts. -/
lemma Sound.quiet (s : Sound span n c) (timer : d.timer = c.timer) (cycles : d.cycles = c.cycles)
    (remaining : d.remaining = c.remaining) : Sound span n d :=
  s.keep (by rw [timer]; exact s.regular) cycles remaining

/-- A sound processor has room for fewer charges. -/
lemma Sound.less (s : Sound span n c) (fewer : m ≤ n) : Sound span m c where
  regular := s.regular
  balanced := s.balanced
  started := s.started
  early := s.early
  short := s.short
  room := by
    have room := s.room
    omega

/-- A change of registers keeps a processor sound. -/
lemma Sound.modifyRegs (s : Sound span n c) (f : Registers → Registers) :
    Sound span n (c.modifyRegs f) := s.quiet rfl rfl rfl

/-- A change of status flags keeps a processor sound. -/
lemma Sound.modifyStatus (s : Sound span n c) (f : Status → Status) :
    Sound span n (c.modifyStatus f) := s.quiet rfl rfl rfl

/-- A longer lockout keeps a processor sound. -/
lemma Sound.block (s : Sound span n c) (instructions : Int) : Sound span n (c.block instructions) :=
  s.quiet rfl rfl rfl

/-- A jump keeps a processor sound. -/
lemma Sound.jump (s : Sound span n c) (target : Word) : Sound span n (c.jump target) :=
  s.quiet rfl rfl rfl

/-- A delayed branch keeps a processor sound. -/
lemma Sound.delayTo (s : Sound span n c) (target : Word) : Sound span n (c.delayTo target) :=
  s.quiet rfl rfl rfl

/-- A report keeps a processor sound. -/
lemma Sound.report (s : Sound span n c) (d : Diagnostic) : Sound span n (c.report d) :=
  s.quiet rfl rfl rfl

/-- What returns a sound processor at once gives it. -/
lemma Gives.pure (s : Sound span n c) : Gives span n (some c) c := ⟨rfl, s⟩

/-- A computation gives what the rest of it gives from the processor that its first part gives. -/
lemma Gives.bind {x : Option Cpu} {f : Cpu → Option Cpu} (first : Gives span n x c)
    (rest : Sound span n c → Gives span m (f c) d) : Gives span m (x >>= f) d := by
  have second := rest first.sound
  exact ⟨proceeds first.eq second.eq, second.sound⟩

/-- A processor that a checked computation gives is updated. -/
lemma Gives.map {x : Option Cpu} {f : Cpu → Cpu} (first : Gives span n x c)
    (sound : Sound span n c → Sound span m (f c)) : Gives span m (x >>= fun c => some (f c)) (f c) :=
  first.bind fun s => .pure (sound s)

/-- A computation gives what the rest of it gives from the value that its first part has. -/
lemma Gives.after {α : Type} {x : Option α} {a : α} {f : α → Option Cpu} (first : x = some a)
    (rest : Gives span n (f a) c) : Gives span n (x >>= f) c :=
  ⟨proceeds first rest.eq, rest.sound⟩

/-- The current cycle of a sound processor is always made, and is far from the greatest number. -/
lemma now_eq (s : Sound span n c) : now span c = some c.cycles ∧ c.cycles < 2 ^ 63 + 2 ^ 48 := by
  have balanced := s.balanced
  have started := s.started
  have early := s.early
  have short := s.short
  have room := s.room
  constructor
  · refine proceeds (signed_eq (by omega) (by omega)) ?_
    have total : span.start + ((span.budget : Int) - c.remaining).toNat = c.cycles := by omega
    rw [total]
    exact unsigned_eq (by omega)
  · omega

/-- Spends the cost of an instruction or entry sequence, which is shifted into place. The count of cycles goes
along: the machine makes it from what is left. -/
def charge (c : Cpu) (kind : CostClass) : Option Cpu := do
  let scale ← amount 64 c.timer.scale.toNat
  let cost := kind.cycles scale
  let remaining ← signed 64 (c.remaining - cost)
  return { c with cycles := c.cycles + cost.toNat, remaining }

/-- No cost is more than that of a division at the greatest scale. -/
lemma cost_le (regular : c.timer.Regular) (kind : CostClass) : c.cost kind ≤ 36 * 128 := by
  rw [Cpu.cost_eq, Nat.shiftLeft_eq]
  exact Nat.mul_le_mul kind.clocks_le (Nat.pow_le_pow_right (by decide) regular.scale)

/-- A charge is made where there is room for it. -/
lemma charge_gives (s : Sound span (n + 1) c) (kind : CostClass) :
    Gives span n (charge c kind) (c.charge kind) := by
  have balanced := s.balanced
  have started := s.started
  have short := s.short
  have early := s.early
  have room := s.room
  have scale := s.regular.scale
  have cost : (c.cost kind : Int) = kind.cycles c.timer.scale.toNat := by
    rw [Cpu.cost_eq, kind.cycles_eq (by omega)]
  have most := cost_le s.regular kind
  constructor
  · refine proceeds (amount_eq (by omega)) ?_
    rw [← cost]
    exact proceeds (signed_eq (by omega) (by omega)) rfl
  · refine ⟨s.regular, ?_, ?_, early, short, ?_⟩
    · show ((c.cycles + c.cost kind : Nat) : Int) + (c.remaining - c.cost kind) = _
      omega
    · show span.start ≤ c.cycles + c.cost kind
      omega
    · show (n * 4608 : Int) ≤ c.remaining - c.cost kind + 2 ^ 15
      omega

/-! ## Special registers -/

/-- Schedules the timer anew at the current cycle. -/
def reschedule (span : Span) (c : Cpu) : Option Cpu := do
  let timer ← schedule c.timer (← now span c) (c.regs.global Global.tpr) (c.regs.global Global.tcr)
    (c.regs.global Global.fcr)
  return { c with timer }

/-- Applies a prescale at the current cycle and keeps it without its deferral. -/
def applyPrescale (span : Span) (c : Cpu) (tpr : Word) : Option Cpu := do
  let timer ← setPrescale c.timer (← now span c) tpr
  return { c with timer }.store Global.tpr (clearDeferral tpr)

/-- Writes the prescaler at once, or leaves it to the next reload. -/
def writePrescaler (span : Span) (c : Cpu) (value : Word) : Option Cpu := do
  if prescaleDeferred value then reschedule span (c.store Global.tpr value)
  else reschedule span (← applyPrescale span c value)

/-- Writes the compare register, with a lockout if it changes. -/
def writeCompare (span : Span) (c : Cpu) (value : Word) : Option Cpu := do
  if c.regs.global Global.tcr = value then return c
  else
    let c ← reschedule span (c.store Global.tcr value)
    return c.block 1

/-- Writes the tick count, from which the timer counts on. -/
def writeTicks (span : Span) (c : Cpu) (value : Word) : Option Cpu := do
  let c := c.store Global.tr value
  let timer := c.timer.rebase (← now span c) value
  reschedule span { c with timer }

/-- Writes the control register, with a new deadline if it turns the timer on or off. -/
def writeControl (span : Span) (c : Cpu) (value : Word) : Option Cpu := do
  let changed := timerInhibited (c.regs.global Global.fcr) != timerInhibited value
  let c := c.store Global.fcr value
  if changed then
    let c ← reschedule span c
    return c.block 1
  else return c.block 1

/-- Writes global register `code`, modulo 32, with its effects. -/
def writeGlobal (span : Span) (c : Cpu) (code : Nat) (value : Word) : Option Cpu :=
  match code % 32 with
  | Global.pc => some (c.setPc value)
  | Global.sr => some (c.writeStatus value)
  | Global.sp => some (c.store Global.sp (alignWord value))
  | Global.ub => some (c.store Global.ub (alignWord value))
  | Global.tpr => writePrescaler span c value
  | Global.tcr => writeCompare span c value
  | Global.tr => writeTicks span c value
  | Global.isr => some c
  | Global.fcr => writeControl span c value
  | Global.mcr => some (c.writeMemoryControl value)
  | _ => do
    let regs ← setGlobal c.regs code value
    return { c with regs }

/-- Writes the register that an operand names. -/
def write (span : Span) (c : Cpu) (o : Operand) (value : Word) : Option Cpu :=
  match o.bank with
  | .globals => writeGlobal span c o.code value
  | .locals => do
    let regs ← setInFrame c.regs o.code value
    return { c with regs }

/-- The register that an operand names. -/
def read (c : Cpu) (o : Operand) : Option Word :=
  match o.bank with
  | .globals => global c.regs o.code
  | .locals => inFrame c.regs o.code

/-- The tick count, charged with half a period if there is more left than that. -/
def readTicks (span : Span) (c : Cpu) : Option (Word × Cpu) := do
  let ticks ← ticksAt c.timer (← now span c)
  let half := c.timer.period / 2
  if half < c.remaining then
    let remaining ← signed 64 (c.remaining - half)
    return (ticks, { c with cycles := c.cycles + half, remaining })
  else return (ticks, c)

/-- Every operand can be read. -/
lemma read_eq (c : Cpu) (o : Operand) : read c o = some (c.read o) := by
  unfold read Cpu.read
  cases o.bank with
  | globals => exact global_eq c.regs o.code
  | locals => exact inFrame_eq c.regs o.code

section

variable (s : Sound span n c)
include s

/-- A sound processor always gets a deadline. -/
lemma reschedule_gives : Gives span n (reschedule span c) c.reschedule := by
  obtain ⟨now, early⟩ := now_eq s
  refine ⟨proceeds now (proceeds (schedule_eq s.regular early _ _ _) rfl), ?_⟩
  exact s.keep (Timer.Regular.schedule s.regular _ _ _ _) rfl rfl

/-- A sound processor always takes a prescale. -/
lemma applyPrescale_gives (tpr : Word) :
    Gives span n (applyPrescale span c tpr) (c.applyPrescale tpr) := by
  obtain ⟨now, -⟩ := now_eq s
  obtain ⟨set, regular⟩ := setPrescale_eq s.regular c.cycles tpr
  exact ⟨proceeds now (proceeds set rfl), s.keep regular rfl rfl⟩

/-- A stored register keeps a processor sound. -/
lemma Sound.store (code : Nat) (value : Word) : Sound span n (c.store code value) :=
  s.modifyRegs _

/-- A sound processor always takes a new prescaler. -/
lemma writePrescaler_gives (value : Word) :
    Gives span n (writePrescaler span c value) (c.writePrescaler value) := by
  unfold writePrescaler Cpu.writePrescaler
  split
  · exact reschedule_gives (s.store Global.tpr value)
  · exact .bind (applyPrescale_gives s value) reschedule_gives

/-- A sound processor always takes a new compare value. -/
lemma writeCompare_gives (value : Word) :
    Gives span n (writeCompare span c value) (c.writeCompare value) := by
  unfold writeCompare Cpu.writeCompare
  split
  · exact .pure s
  · exact (reschedule_gives (s.store Global.tcr value)).map (·.block 1)

/-- A sound processor always takes a new tick count. -/
lemma writeTicks_gives (value : Word) :
    Gives span n (writeTicks span c value) (c.writeTicks value) := by
  have stored := s.store Global.tr value
  exact .after (now_eq stored).1
    (reschedule_gives (stored.keep (s.regular.keep rfl rfl rfl) rfl rfl))

/-- A sound processor always takes a new control word. -/
lemma writeControl_gives (value : Word) :
    Gives span n (writeControl span c value) (c.writeControl value) := by
  have stored := s.store Global.fcr value
  unfold writeControl Cpu.writeControl
  dsimp only
  split
  · exact (reschedule_gives stored).map (·.block 1)
  · exact .pure (stored.block 1)

/-- A sound processor always takes the write of a global register. -/
lemma writeGlobal_gives (code : Nat) (value : Word) :
    Gives span n (writeGlobal span c code value) (c.setGlobal code value) := by
  unfold writeGlobal
  fun_cases Cpu.setGlobal c code value
  case case11 =>
    have stored : Gives span n (do return { c with regs := ← setGlobal c.regs code value })
        (c.store code value) :=
      .after (setGlobal_eq c.regs code value) (.pure (s.store code value))
    split
    all_goals first
      | contradiction
      | exact stored
  all_goals rw [‹code % 32 = _›]
  · exact .pure (s.modifyRegs _)
  · exact .pure ((s.modifyStatus _).block 1)
  · exact .pure (s.store _ _)
  · exact .pure (s.store _ _)
  · exact writePrescaler_gives s value
  · exact writeCompare_gives s value
  · exact writeTicks_gives s value
  · exact .pure s
  · exact writeControl_gives s value
  · refine .pure ?_
    unfold Cpu.writeMemoryControl
    dsimp only
    split <;> exact s.quiet rfl rfl rfl

/-- A sound processor always takes the write of an operand. -/
lemma write_gives (o : Operand) (value : Word) :
    Gives span n (write span c o value) (c.write o value) := by
  unfold write Cpu.write
  cases o.bank with
  | globals => exact writeGlobal_gives s o.code value
  | locals =>
    exact .after (setInFrame_eq c.regs o.code value) (.pure (s.modifyRegs (·.setInFrame o.code value)))

/-- Reading the tick count is charged only if there is more left than it costs. -/
lemma readTicks_gives (few : n ≤ 7) :
    readTicks span c = some c.readTicks ∧ Sound span n c.readTicks.2 := by
  obtain ⟨now, -⟩ := now_eq s
  have balanced := s.balanced
  have started := s.started
  have short := s.short
  unfold readTicks Cpu.readTicks
  dsimp only
  split
  · rename_i enough
    -- what is left stays positive, so that there is the room that there was with none of it left
    refine ⟨proceeds now (proceeds (ticksAt_eq s.regular _)
      (proceeds (signed_eq (by omega) (by omega)) rfl)), s.regular, ?_, ?_, s.early, short, ?_⟩
    · show ((c.cycles + c.timer.period / 2 : Nat) : Int) +
        (c.remaining - (c.timer.period / 2 : Nat)) = _
      omega
    · exact Nat.le_trans started (Nat.le_add_right _ _)
    · show (n * 4608 : Int) ≤ c.remaining - (c.timer.period / 2 : Nat) + 2 ^ 15
      omega
  · exact ⟨proceeds now (proceeds (ticksAt_eq s.regular _) rfl), s⟩

end

/-! ## Entries -/

/-- Writes words to the registers of the current frame from a code on. -/
def fillFrame (c : Cpu) (code : Nat) : List Word → Option Cpu
  | [] => some c
  | value :: values => do
    let regs ← setInFrame c.regs code value
    let next ← unsigned 8 (code + 1)
    fillFrame { c with regs } next values

/-- Opens a frame, stacks words in it and logs the entry. -/
def stackEntry (c : Cpu) (cause : EntryCause) (length : BitVec 4) (stacked : List Word) : Option Cpu := do
  let c ← fillFrame (c.modifyStatus (·.openFrame length)) 0 stacked
  return { c with entries := c.entries.push ⟨cause, c.status.fp, stacked, c.delay.target⟩ }

/-- Enters the handler at a vector with the return address and the status stacked. -/
def enterFrame (c : Cpu) (cause : EntryCause) (vector : Word) (length : BitVec 4) : Option Cpu := do
  let c := c.noteLength c.length
  let c ← stackEntry c cause length [c.returnPc, c.status.bits]
  charge ((c.modifyStatus fun s =>
    { s with m := false, t := false, l := true, s := true, i := s.i || cause.isInterrupt }).jump vector)
    .entrySequence

/-- The entry point of a handler, counted from either end of the table. -/
def vector (entry : TrapEntry) (number : Nat) : Option Word := do
  let number := number % 64
  match entry with
  | .mem3 => return entry.base ||| BitVec.ofNat 32 (← unsigned 32 (4 * number))
  | _ => return entry.base ||| BitVec.ofNat 32 (← unsigned 32 (4 * (← difference 63 number)))

/-- Enters the handler of a trap. -/
def enterTrap (c : Cpu) (number : Nat) : Option Cpu := do
  enterFrame c (.trap number) (← vector c.entry number) 6

/-- Enters the handler of an interrupt. -/
def enterInterrupt (c : Cpu) (source : InterruptSource) : Option Cpu := do
  enterFrame c (.interrupt source) (← vector c.entry source.trapNumber) 2

/-- Enters the handler of an exception. -/
def raise (c : Cpu) (exception : Exception) : Option Cpu := do
  enterFrame c (.exception exception) (← vector c.entry exception.trapNumber) 2

/-- Enters the handler of an exception on a condition. -/
def raiseIf (c : Cpu) (condition : Bool) (exception : Exception) : Option Cpu :=
  if condition then raise c exception else some c

/-- The stack address of a register of the current frame. -/
def stackAddress (c : Cpu) (code : Nat) : Option Word := do
  let index ← place code c.regs.status.fp.toNat
  return (c.regs.sp.extractLsb' 8 24 ++ 0#8) + 0x100 + BitVec.ofNat 32 (← unsigned 32 (4 * index))

/-- Enters the handler of an extended instruction with its operands stacked. -/
def enterEmulation (c : Cpu) (byte : Byte) (dst src : Nat) : Option Cpu := do
  let c := c.noteLength 1
  let address ← stackAddress c dst
  let first ← inFrame c.regs src
  let second ← inFrame c.regs (← unsigned 8 (src + 1))
  let c ← stackEntry c (.emulation byte) 6 [address, first, second, c.returnPc, c.status.bits]
  charge ((c.modifyStatus fun s => { s with m := false, t := false, l := true }).jump
    (c.entry.emulation byte)) .softwareEntry

/-- Every number has an entry point. -/
lemma vector_eq (entry : TrapEntry) (number : Nat) : vector entry number = some (entry.vector number) := by
  have below : number % 64 < 64 := Nat.mod_lt _ (by decide)
  have upward := unsigned_eq (w := 32) (show 4 * (number % 64) < 2 ^ 32 by omega)
  have place := difference_eq (show number % 64 ≤ 63 by omega)
  have downward := unsigned_eq (w := 32) (show 4 * (63 - number % 64) < 2 ^ 32 by omega)
  cases entry with
  | mem3 => exact proceeds upward rfl
  | mem0 | mem1 | mem2 | iram => exact proceeds place (proceeds downward rfl)

/-- Every register of a frame has a stack address. -/
lemma stackAddress_eq (c : Cpu) (code : Nat) : stackAddress c code = some (c.stackAddress code) := by
  have below := (localSlot code c.regs.status.fp.toNat).isLt
  exact proceeds (place_eq code c.regs.status.fp) (proceeds (unsigned_eq (by omega)) rfl)

section

/-- A frame is always filled, if the codes of its words stay within eight bits. -/
lemma fillFrame_gives (values : List Word) : ∀ {c : Cpu} {code : Nat}, Sound span n c →
    code + values.length < 256 → Gives span n (fillFrame c code values) (c.fillFrame code values) := by
  induction values with
  | nil => exact fun s _ => .pure s
  | cons value values ih =>
    intro c code s fits
    rw [List.length_cons] at fits
    refine .after (setInFrame_eq c.regs code value) (.after (unsigned_eq (by omega)) ?_)
    exact ih (s.modifyRegs (·.setInFrame code value)) (by omega)

/-- The words of an entry are always stacked, if they are fewer than 256. -/
lemma stackEntry_gives (s : Sound span n c) (cause : EntryCause) (length : BitVec 4) {stacked : List Word}
    (few : stacked.length < 256) :
    Gives span n (stackEntry c cause length stacked) (c.stackEntry cause length stacked) := by
  have opened : Sound span n (c.modifyStatus (·.openFrame length)) := s.modifyStatus _
  have filled := fillFrame_gives stacked opened (show 0 + stacked.length < 256 by omega)
  exact filled.map (f := fun c =>
    { c with entries := c.entries.push ⟨cause, c.status.fp, stacked, c.delay.target⟩ })
    fun s => s.quiet rfl rfl rfl

variable (s : Sound span (n + 1) c)
include s

/-- A handler is always entered where there is room for a charge. -/
lemma enterFrame_gives (cause : EntryCause) (vector : Word) (length : BitVec 4) :
    Gives span n (enterFrame c cause vector length) (c.enterFrame cause vector length) :=
  .bind (stackEntry_gives (s.modifyStatus _) cause length (by simp)) fun s =>
    charge_gives ((s.modifyStatus _).jump vector) .entrySequence

/-- A trap is always taken where there is room for a charge. -/
lemma enterTrap_gives (number : Nat) : Gives span n (enterTrap c number) (c.enterTrap number) :=
  .after (vector_eq c.entry number) (enterFrame_gives s _ _ _)

/-- An interrupt is always entered where there is room for a charge. -/
lemma enterInterrupt_gives (source : InterruptSource) :
    Gives span n (enterInterrupt c source) (c.enterInterrupt source) :=
  .after (vector_eq c.entry _) (enterFrame_gives s _ _ _)

/-- An exception is always raised where there is room for a charge. -/
lemma raise_gives (exception : Exception) : Gives span n (raise c exception) (c.raise exception) :=
  .after (vector_eq c.entry _) (enterFrame_gives s _ _ _)

/-- An exception on a condition is always raised or passed over where there is room for a charge. -/
lemma raiseIf_gives (condition : Bool) (exception : Exception) :
    Gives span n (raiseIf c condition exception) (c.raiseIf condition exception) := by
  cases condition with
  | true => exact raise_gives s exception
  | false => exact .pure (s.less (Nat.le_succ n))

/-- An emulation is always entered where there is room for a charge, if its source code is small. -/
lemma enterEmulation_gives (byte : Byte) (dst : Nat) {src : Nat} (small : src < 16) :
    Gives span n (enterEmulation c byte dst src) (c.enterEmulation byte dst src) := by
  have noted := s.modifyStatus fun s => { s with ilc := BitVec.ofNat 2 1 }
  refine .after (stackAddress_eq _ dst) (.after (inFrame_eq _ src) (.after (unsigned_eq (by omega))
    (.after (inFrame_eq _ (src + 1)) (.bind (stackEntry_gives noted (.emulation byte) 6 (by simp)) ?_))))
  exact fun s => charge_gives ((s.modifyStatus _).jump _) .softwareEntry

end

end Checked

end E1Machine
