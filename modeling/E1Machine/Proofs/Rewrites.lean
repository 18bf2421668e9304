import E1Machine.Bus.Flat
import E1Machine.Proofs.TickCount

/-!
# Rewrites of the prescale in force

A change of prescale moves the base of the tick count to its cycle and keeps the count of that cycle, so that no
tick is lost or repeated across the change. The tick that runs starts anew there, also if the prescale is the one
in force. From then on the count is that of a timer which started later by the part of the tick that had passed
(`InForce.ticksAt_rewrite`), and the parts that several rewrites cut off add up (`InForce.ticksAt_rewriteAll`). So
the count stands still while a guest rewrites its prescaler in every tick.

Main statement: `Timer.rewrite_keeps_iff`.
-/

namespace E1Machine

namespace Timer

/-- A prescaler value asks for the scale and the period in force. -/
structure InForce (t : Timer) (tpr : Word) : Prop where
  scale : tpr.extractLsb' 26 5 &&& t.scaleMask.setWidth 5 = t.scale
  period : (tpr.extractLsb' 16 8).toNat + 2 = t.period

/-- Whether a prescaler value is in force can be decided by its two fields. -/
instance (t : Timer) (tpr : Word) : Decidable (t.InForce tpr) :=
  decidable_of_iff (tpr.extractLsb' 26 5 &&& t.scaleMask.setWidth 5 = t.scale ∧
    (tpr.extractLsb' 16 8).toNat + 2 = t.period) ⟨fun h => ⟨h.1, h.2⟩, fun h => ⟨h.scale, h.period⟩⟩

/-- How many cycles of the tick that runs have passed. -/
def intoTick (t : Timer) (now : Nat) : Nat := (now - t.baseCycle) % t.tickLength

/-- The timer after a prescaler value is applied at some cycles, one after another. -/
def rewriteAll (t : Timer) (tpr : Word) : List Nat → Timer
  | [] => t
  | now :: cycles => (t.setPrescale now tpr).rewriteAll tpr cycles

/-- The cycles that are cut off if the base, at first `base`, is moved to some cycles one after another: of each
distance what exceeds whole ticks. -/
def lostCycles (length base : Nat) : List Nat → Nat
  | [] => 0
  | now :: cycles => (now - base) % length + lostCycles length now cycles

variable {t : Timer} {tpr : Word} {now later : Nat}

/-! ## Setting a count back -/

/-- Less than a tick earlier the count is the same or one less, as the tick that runs has or has not begun. -/
lemma ticksAt_sub {lost : Nat} (short : lost < t.tickLength) (begun : t.baseCycle + lost ≤ later) :
    (lost ≤ t.intoTick later → t.ticksAt (later - lost) = t.ticksAt later) ∧
      (t.intoTick later < lost → t.ticksAt later = t.ticksAt (later - lost) + 1) := by
  have since : later - lost - t.baseCycle = later - t.baseCycle - lost := by omega
  have split := Nat.div_add_mod' (later - t.baseCycle) t.tickLength
  have inside : (later - t.baseCycle) % t.tickLength < t.tickLength := Nat.mod_lt _ (by omega)
  rw [ticksAt_eq, ticksAt_eq, ticksSinceBase_eq, ticksSinceBase_eq, since]
  unfold intoTick
  -- Lost cycles that have already run in the present tick do not reach back into the one before.
  generalize (later - t.baseCycle) / t.tickLength = ticks at split
  constructor
  · intro running
    have same : (later - t.baseCycle - lost) / t.tickLength = ticks :=
      Nat.div_eq_of_lt_le (by omega) (by rw [Nat.succ_mul]; omega)
    rw [same]
  · intro before
    obtain ⟨previous, rfl⟩ : ∃ previous, ticks = previous + 1 := by
      refine Nat.exists_eq_add_one.mpr (Nat.pos_of_ne_zero ?_)
      rintro rfl
      omega
    have one : (later - t.baseCycle - lost) / t.tickLength = previous := by
      rw [Nat.succ_mul] at split
      exact Nat.div_eq_of_lt_le (by omega) (by rw [Nat.succ_mul]; omega)
    rw [one, BitVec.ofNat_add, ← BitVec.add_assoc]
    rfl

/-- When the tick that runs is over the next one begins. -/
lemma intoTick_next (length : 0 < t.tickLength) (begun : t.baseCycle ≤ now) :
    t.intoTick (now + (t.tickLength - t.intoTick now)) = 0 := by
  have short : t.intoTick now < t.tickLength := Nat.mod_lt _ length
  have split := Nat.div_add_mod' (now - t.baseCycle) t.tickLength
  have whole : now + (t.tickLength - t.intoTick now) - t.baseCycle =
      ((now - t.baseCycle) / t.tickLength + 1) * t.tickLength := by
    rw [Nat.succ_mul]
    unfold intoTick at short ⊢
    omega
  unfold intoTick at whole ⊢
  rw [whole, Nat.mul_mod_left]

/-- What rewrites in a row cut off lies between the base and the last of them. -/
lemma lostCycles_le (length : Nat) (cycles : List Nat) : ∀ {base later : Nat},
    (base :: cycles).IsChain (· ≤ ·) → (∀ now ∈ base :: cycles, now ≤ later) →
      base + lostCycles length base cycles ≤ later := by
  induction cycles with
  | nil => exact fun _ before => before _ List.mem_cons_self
  | cons now cycles ih =>
    intro base later ordered before
    obtain ⟨next, rest⟩ := List.isChain_cons_cons.mp ordered
    have least := ih rest fun cycle inside => before cycle (List.mem_cons_of_mem _ inside)
    have part : (now - base) % length ≤ now - base := Nat.mod_le _ _
    unfold lostCycles
    omega

/-! ## Rewrites -/

namespace InForce

variable (same : t.InForce tpr)
include same

/-- With a prescale in force a tick lasts at least a cycle. -/
lemma tickLength_pos : 0 < t.tickLength := by
  have period := same.period
  exact Nat.lt_of_lt_of_le t.clockLength_pos (clockLength_le (by omega))

/-- A rewrite only moves the base. -/
lemma setPrescale_eq (now : Nat) : t.setPrescale now tpr = t.rebase now (t.ticksAt now) := by
  unfold setPrescale rebase
  rw [same.scale, same.period]

/-- A prescale that is written again stays in force. -/
lemma rewritten (now : Nat) : (t.setPrescale now tpr).InForce tpr := by
  rw [same.setPrescale_eq]
  exact ⟨same.scale, same.period⟩

/-- A rewrite sets the count back by the cycles of the tick that runs. -/
lemma ticksAt_rewrite (begun : t.baseCycle ≤ now) (le : now ≤ later) :
    (t.setPrescale now tpr).ticksAt later = t.ticksAt (later - t.intoTick now) := by
  have positive : 0 < t.period := by
    have period := same.period
    omega
  have here := tickStart_ticksSinceBase begun
  have start : later - t.intoTick now = t.tickStart (t.ticksSinceBase now) + (later - now) := by
    unfold intoTick
    omega
  have since : (t.rebase now (t.ticksAt now)).ticksSinceBase later = (later - now) / t.tickLength :=
    ticksSinceBase_eq _ _
  have value : t.ticksAt (t.tickStart (t.ticksSinceBase now) + (later - now)) =
      t.ticksAt now + BitVec.ofNat 32 ((later - now) / t.tickLength) := by
    rw [ticksAt_eq, ticksAt_eq, ticksSinceBase_tickStart positive, BitVec.ofNat_add, BitVec.add_assoc]
  rw [same.setPrescale_eq, start, value, ← since]
  exact ticksAt_eq _ _

/-- Every rewrite adds to what is cut off. -/
lemma ticksAt_rewriteAll (cycles : List Nat) (ordered : (t.baseCycle :: cycles).IsChain (· ≤ ·))
    (before : ∀ now ∈ t.baseCycle :: cycles, now ≤ later) :
    (t.rewriteAll tpr cycles).ticksAt later =
      t.ticksAt (later - lostCycles t.tickLength t.baseCycle cycles) := by
  induction cycles generalizing t with
  | nil => rfl
  | cons now cycles ih =>
    obtain ⟨next, rest⟩ := List.isChain_cons_cons.mp ordered
    have before' : ∀ cycle ∈ now :: cycles, cycle ≤ later := fun cycle inside =>
      before cycle (List.mem_cons_of_mem _ inside)
    have least := lostCycles_le t.tickLength cycles rest before'
    have length : (t.setPrescale now tpr).tickLength = t.tickLength := by
      rw [same.setPrescale_eq]
      rfl
    -- The first rewrite cuts off its own part, after which the rest is cut off the rewritten timer.
    refine (ih (same.rewritten now) rest before').trans ?_
    rw [length]
    show (t.setPrescale now tpr).ticksAt (later - lostCycles t.tickLength now cycles) =
      t.ticksAt (later - (t.intoTick now + lostCycles t.tickLength now cycles))
    rw [same.ticksAt_rewrite next (by omega), Nat.sub_sub, Nat.add_comm]

end InForce

end Timer

/-- A guest that writes a prescaler value which is not deferred changes the count as its timer does. -/
lemma Cpu.setGlobal_ticksAt (c : Cpu) {tpr : Word} (immediate : prescaleDeferred tpr = false) (later : Nat) :
    (c.setGlobal Global.tpr tpr).timer.ticksAt later = (c.timer.setPrescale c.cycles tpr).ticksAt later := by
  rw [c.setGlobal_prescaler immediate]
  exact ticksAt_reschedule _ later

namespace Timer

/-- When the prescale in force is written again, by a guest or by the timer itself, the count is set back by the
cycles of the tick that runs: it stays at the cycle of the rewrite, and at a later cycle it is the same exactly if
the tick of that cycle has come as far, and otherwise one less. So it is the same at all later cycles exactly if the
rewrite comes at the start of a tick.
Any number of rewrites sets the count back by all the parts of ticks that they cut off. -/
theorem rewrite_keeps_iff {t : Timer} {tpr : Word} (same : t.InForce tpr) {now : Nat}
    (begun : t.baseCycle ≤ now) :
    let after := t.setPrescale now tpr
    (∀ later, now ≤ later →
      after.ticksAt later = t.ticksAt (later - t.intoTick now) ∧
      (after.ticksAt later = t.ticksAt later ↔ t.intoTick now ≤ t.intoTick later) ∧
      (t.intoTick later < t.intoTick now → t.ticksAt later = after.ticksAt later + 1)) ∧
    ((∀ later, now ≤ later → after.ticksAt later = t.ticksAt later) ↔ t.intoTick now = 0) ∧
    (∀ cycles later, (t.baseCycle :: cycles).IsChain (· ≤ ·) → (∀ n ∈ t.baseCycle :: cycles, n ≤ later) →
      (t.rewriteAll tpr cycles).ticksAt later =
        t.ticksAt (later - lostCycles t.tickLength t.baseCycle cycles)) ∧
    ∀ c : Cpu, c.timer = t → c.cycles = now → prescaleDeferred tpr = false →
      ∀ later, (c.setGlobal Global.tpr tpr).timer.ticksAt later = after.ticksAt later := by
  intro after
  have length := same.tickLength_pos
  have short : t.intoTick now < t.tickLength := Nat.mod_lt _ length
  have part : t.intoTick now ≤ now - t.baseCycle := Nat.mod_le _ _
  have setBack {later : Nat} (le : now ≤ later) :
      after.ticksAt later = t.ticksAt (later - t.intoTick now) ∧
      (after.ticksAt later = t.ticksAt later ↔ t.intoTick now ≤ t.intoTick later) ∧
      (t.intoTick later < t.intoTick now → t.ticksAt later = after.ticksAt later + 1) := by
    have back := same.ticksAt_rewrite begun le
    have reached : t.baseCycle + t.intoTick now ≤ later := by omega
    obtain ⟨kept, lost⟩ := ticksAt_sub short reached
    rw [← back] at kept lost
    refine ⟨back, ⟨fun equal => Nat.le_of_not_lt fun less => ?_, kept⟩, lost⟩
    have behind := lost less
    generalize after.ticksAt later = count at equal behind
    rw [← equal] at behind
    bv_omega
  refine ⟨fun later le => setBack le, ⟨fun kept => ?_, fun start later le => ?_⟩, ?_, ?_⟩
  · -- The tick after the one that runs would begin too late.
    have next := intoTick_next length begun
    have le : now ≤ now + (t.tickLength - t.intoTick now) := Nat.le_add_right _ _
    have reached := (setBack le).2.1.mp (kept _ le)
    omega
  · rw [(setBack le).1, start, Nat.sub_zero]
  · exact fun cycles later => same.ticksAt_rewriteAll cycles
  · rintro c rfl rfl immediate later
    exact c.setGlobal_ticksAt immediate later

/-- The timer of the compare match is two cycles into a tick at cycle 150. A rewrite then makes the tick that
begins at 172 begin at 174. -/
theorem wrappedTimer_rewritten :
    (wrappedTimer.setPrescale 150 0x08040000).ticksAt 171 = wrappedTimer.ticksAt 171 ∧
      wrappedTimer.ticksAt 172 = (wrappedTimer.setPrescale 150 0x08040000).ticksAt 172 + 1 := by
  have same : wrappedTimer.InForce 0x08040000 := by decide
  have begun : wrappedTimer.baseCycle ≤ 150 := by decide
  obtain ⟨kept, -⟩ := rewrite_keeps_iff same begun
  exact ⟨(kept 171 (by decide)).2.1.mpr (by decide), (kept 172 (by decide)).2.2 (by decide)⟩

end Timer

namespace Machine

/-- A machine whose timer has counted three cycles, in ticks of two, since its reset. -/
def countingCycles : Machine (DeviceBus FlatMemory) :=
  (powerOn Variant.e132t.config ({} : FlatMemory)).session [.host .reset, .host (.advance 1)]

/-- The tick count at cycle 4 is two. If the prescaler is written with the value that it has at cycle 3, it is
one. -/
theorem rewrite_loses :
    let written := countingCycles.session [.host (.setGlobal Global.tpr Cpu.resetPrescaler)]
    countingCycles.cpu.timer.InForce Cpu.resetPrescaler ∧
      countingCycles.cpu.timer.baseCycle ≤ countingCycles.cpu.cycles ∧ countingCycles.cpu.cycles = 3 ∧
      countingCycles.cpu.timer.ticksAt 4 = 2 ∧ written.cpu.timer.ticksAt 4 = 1 ∧
      written.cpu.timer.ticksAt 4 ≠ countingCycles.cpu.timer.ticksAt 4 := by
  decide +kernel

end Machine

end E1Machine
