import E1Machine.Proofs.CompareMatch
import E1Machine.Proofs.Scales
import E1Machine.Proofs.TimerWrites

/-!
# The tick count

The tick count is not stored: it is the whole ticks since a base, and a change of prescale moves the base.
A move of the base keeps the count of that cycle, and a tick lasts at least two cycles, so that the count
never runs backwards and gains at most one tick for every two cycles (`Machine.ticks_steady`). Only a write
of the timer register and a reset are exempt.

The invariant looks ahead (`Cpu.Steady`): it bounds the count at every cycle to come, under the prescale in
force. So the passage of time keeps it, and a change of prescale continues it from the count of its cycle.
-/

namespace E1Machine

namespace Timer

variable {t : Timer}

/-! ## Ticks and cycles -/

/-- Between two points a period of at least two goes into the cycles at most half as often, rounded up. -/
lemma div_steady {length x y : Nat} (long : 2 ≤ length) (le : x ≤ y) :
    ∃ k ≤ (y - x + 1) / 2, y / length = x / length + k := by
  have monotone : x / length ≤ y / length := Nat.div_le_div_right le
  refine ⟨y / length - x / length, ?_, by omega⟩
  obtain ⟨d, rfl⟩ := Nat.exists_eq_add_of_le le
  have short : (x + d) / length < x / length + (d + 1) / 2 + 1 := by
    apply Nat.div_lt_of_lt_mul
    have before : x < length * (x / length) + length := Nat.lt_mul_div_succ x (by omega)
    have half : 2 * ((d + 1) / 2) ≤ length * ((d + 1) / 2) := Nat.mul_le_mul_right _ long
    rw [Nat.mul_add, Nat.mul_add]
    omega
  omega

/-- A tick that takes two clocks takes two cycles or more. -/
lemma tickLength_long (period : 2 ≤ t.period) : 2 ≤ t.tickLength := by
  have length := t.clockLength_pos
  rw [tickLength_eq]
  exact Nat.le_trans period (Nat.le_mul_of_pos_right _ length)

/-- Under one prescale the count gains at most a tick for every two cycles. -/
lemma ticksAt_steady (period : 2 ≤ t.period) {now later : Nat} (begun : t.baseCycle ≤ now)
    (le : now ≤ later) :
    ∃ k ≤ (later - now + 1) / 2, t.ticksAt later = t.ticksAt now + BitVec.ofNat 32 k := by
  obtain ⟨k, few, split⟩ := div_steady (tickLength_long period) (Nat.sub_le_sub_right le t.baseCycle)
  refine ⟨k, by omega, ?_⟩
  rw [ticksAt_eq, ticksAt_eq, ticksSinceBase_eq, ticksSinceBase_eq, split, BitVec.ofNat_add,
    BitVec.add_assoc]

/-- From a change of prescale on, the count gains at most a tick for every two cycles, and none before the
second. -/
lemma ticksAt_prescaled (t : Timer) (now later : Nat) (tpr : Word) :
    ∃ k ≤ (later - now) / 2,
      (t.setPrescale now tpr).ticksAt later = t.ticksAt now + BitVec.ofNat 32 k := by
  have long := tickLength_long (t := t.setPrescale now tpr) (Nat.le_add_left _ _)
  refine ⟨(later - now) / (t.setPrescale now tpr).tickLength, Nat.div_le_div_left long (by decide), ?_⟩
  rw [ticksAt_eq, ticksSinceBase_eq]
  rfl

end Timer

namespace Cpu

/-- The tick count now. -/
def ticks (c : Cpu) : Word := c.timer.ticksAt c.cycles

variable {s c d : Cpu}

/-- A processor that idles counts its ticks as before. -/
lemma Idles.ticksAt (idles : c.Idles d) (n : Nat) : d.timer.ticksAt n = c.timer.ticksAt n := by
  obtain same | taken := idles.timer
  · rw [same]
  · rw [taken]
    rfl

/-- A new deadline leaves the count of ticks alone. -/
lemma ticksAt_reschedule (c : Cpu) (n : Nat) :
    c.reschedule.timer.ticksAt n = c.timer.ticksAt n :=
  c.timer.ticksAt_schedule _ _ _ _ _

/-! ## Where the base lies -/

/-- The base of the timer lies in the past, and a tick has at least two clocks. -/
structure Based (c : Cpu) : Prop where
  begun : c.timer.baseCycle ≤ c.cycles
  period : 2 ≤ c.timer.period

/-- A processor that idles keeps its base in the past. -/
lemma Based.idles (based : c.Based) (idles : c.Idles d) : d.Based := by
  have same : d.timer.baseCycle = c.timer.baseCycle ∧ d.timer.period = c.timer.period := by
    obtain same | taken := idles.timer
    · rw [same]
      exact ⟨rfl, rfl⟩
    · rw [taken]
      exact ⟨rfl, rfl⟩
  constructor
  · rw [same.1]
    exact Nat.le_trans based.begun idles.cycles
  · rw [same.2]
    exact based.period

/-- A new deadline leaves the base in the past. -/
lemma Based.reschedule (based : c.Based) : c.reschedule.Based := by
  obtain ⟨deadline, scheduled⟩ := c.reschedule_changes
  rw [scheduled]
  exact ⟨based.begun, based.period⟩

/-- A prescale starts at the cycle at which it is applied, whatever was before. -/
lemma based_applyPrescale (c : Cpu) (tpr : Word) : (c.applyPrescale tpr).Based :=
  ⟨Nat.le_refl _, Nat.le_add_left _ _⟩

/-- A write of a timer register leaves the base in the past. -/
lemma Based.replaced {code : Nat} {value : Word} (based : c.Based) (replaces : c.Replaces code value d) :
    d.Based := by
  cases replaces with
  | deferred | compare | control => exact ⟨based.begun, based.period⟩
  | immediate => exact c.based_applyPrescale value
  | ticks => exact ⟨Nat.le_refl _, based.period⟩

/-- Serving the timer leaves the base in the past. -/
lemma Based.timerExpired (based : c.Based) : c.timerExpired.Based := by
  refine timerExpired_keeps (fun called => ?_) (fun based => based.reschedule)
    (fun based => ⟨based.begun, based.period⟩) based
  cases called with
  | compares => exact ⟨based.begun, based.period⟩
  | reloads => exact based_applyPrescale _ _

/-- A reset starts the prescale at its own cycle. -/
lemma based_reset (c : Cpu) : c.reset.Based := by
  obtain ⟨d, -, -, idles⟩ := c.reset_timer
  exact (d.based_applyPrescale resetPrescaler).reschedule.idles idles

/-- All moves keep the base in the past. -/
lemma Based.follow {β : Type} [Bus β] {m : Machine β} (based : m.cpu.Based) (moves : List Move) :
    (m.follow moves).cpu.Based :=
  Machine.follow_writes (fun idles based => based.idles idles)
    (fun _ replaces based => (based.replaced replaces).reschedule) (fun based => based.timerExpired)
    (fun _ {c} _ => c.based_reset) (Machine.writesOnly_all moves m) based

/-- The base of every reachable processor lies in the past. -/
lemma Reachable.based {config : Config} (reachable : Reachable config c) : c.Based := by
  induction reachable with
  | powerOn => exact ⟨Nat.le_refl _, Nat.le_refl _⟩
  | modifyRegs f _ ih => exact ⟨ih.begun, ih.period⟩
  | @call β _ m call _ ih =>
    obtain ⟨moves, eq⟩ := m.call_reaches call
    rw [← eq]
    exact ih.follow moves

/-! ## The count from a point on -/

/-- From one processor to another at most one tick has been gained for every two cycles, and this will be
so at every later cycle under the prescale in force. -/
structure Steady (s c : Cpu) : Prop where
  later : s.cycles ≤ c.cycles
  gains (n : Nat) (after : c.cycles ≤ n) :
    ∃ k ≤ (n - s.cycles + 1) / 2, c.timer.ticksAt n = s.ticks + BitVec.ofNat 32 k

/-- A processor is steady with respect to itself. -/
lemma Based.steady (based : s.Based) : Steady s s where
  later := Nat.le_refl _
  gains _ after := Timer.ticksAt_steady based.period based.begun after

/-- What counts alike, no earlier, is steady too. -/
lemma Steady.congr (steady : Steady s c) (cycles : c.cycles ≤ d.cycles)
    (alike : ∀ n, d.timer.ticksAt n = c.timer.ticksAt n) : Steady s d where
  later := Nat.le_trans steady.later cycles
  gains n after := by
    rw [alike]
    exact steady.gains n (Nat.le_trans cycles after)

/-- A new deadline keeps the count steady. -/
lemma Steady.reschedule (steady : Steady s c) : Steady s c.reschedule :=
  steady.congr (Nat.le_refl _) c.ticksAt_reschedule

/-- A prescale continues the count of its cycle. -/
lemma Steady.applyPrescale (steady : Steady s c) (tpr : Word) : Steady s (c.applyPrescale tpr) where
  later := steady.later
  gains n after := by
    obtain ⟨before, few, now⟩ := steady.gains c.cycles (Nat.le_refl _)
    obtain ⟨more, slow, then_⟩ := c.timer.ticksAt_prescaled c.cycles n tpr
    have since := steady.later
    have le : c.cycles ≤ n := after
    refine ⟨before + more, by omega, ?_⟩
    show (c.timer.setPrescale c.cycles tpr).ticksAt n = _
    rw [then_, now, BitVec.ofNat_add, BitVec.add_assoc]

/-- A write of a timer register other than the count itself keeps it steady. -/
lemma Steady.replaced {code : Nat} {value : Word} (steady : Steady s c)
    (notTicks : code % 32 ≠ Global.tr) (replaces : c.Replaces code value d) : Steady s d := by
  cases replaces with
  | deferred | compare | control => exact steady.congr (Nat.le_refl _) fun _ => rfl
  | immediate => exact steady.applyPrescale value
  | ticks named => exact absurd named notTicks

/-- Serving the timer keeps the count steady, reloads included. -/
lemma Steady.timerExpired (steady : Steady s c) : Steady s c.timerExpired := by
  have taken : Steady s { c with timer := { c.timer with deadline := none } } :=
    steady.congr (Nat.le_refl _) fun _ => rfl
  refine timerExpired_keeps (fun called => ?_) (fun steady => steady.reschedule)
    (fun steady => steady.congr (Nat.le_refl _) fun _ => rfl) steady
  cases called with
  | compares => exact taken
  | reloads => exact taken.applyPrescale _

/-! ## Changes of prescale -/

/-- A new deadline leaves the tick count as it is. -/
lemma reschedule_ticks (c : Cpu) : c.reschedule.ticks = c.ticks := c.ticksAt_reschedule c.cycles

/-- A new prescale leaves the tick count as it is. -/
lemma applyPrescale_ticks (c : Cpu) (tpr : Word) : (c.applyPrescale tpr).ticks = c.ticks :=
  c.timer.ticksAt_setPrescale c.cycles tpr

/-- A write of the prescaler keeps the count of its cycle. -/
lemma setGlobal_ticks (c : Cpu) {code : Nat} (named : code % 32 = Global.tpr) (value : Word) :
    (c.setGlobal code value).ticks = c.ticks := by
  have writes : c.setGlobal code value = c.writePrescaler value := by
    unfold setGlobal
    rw [named]
    rfl
  rw [writes]
  unfold writePrescaler
  rw [reschedule_ticks]
  split
  · rfl
  · exact c.applyPrescale_ticks value

/-- So does the callback, which applies a deferred prescale. -/
lemma timerExpired_ticks (c : Cpu) : c.timerExpired.ticks = c.ticks := by
  refine timerExpired_keeps (Q := fun d => d.ticks = c.ticks) (fun called => ?_)
    (fun {d} kept => d.reschedule_ticks.trans kept) id rfl
  cases called with
  | compares => rfl
  | reloads => exact applyPrescale_ticks _ _

end Cpu

namespace Machine

/-- The count never runs backwards and never jumps. -/
theorem ticks_steady {β : Type} [Bus β] {config : Config} {m : Machine β}
    (reachable : Cpu.Reachable config m.cpu) (before moves : List Move)
    (noReset : .host .reset ∉ moves)
    (noWrite : WritesOnly (fun _ code _ => code % 32 ≠ Global.tr) (m.follow before) moves) :
    let s := (m.follow before).cpu
    let c := ((m.follow before).follow moves).cpu
    (s.cycles ≤ c.cycles ∧
      ∃ k ≤ (c.cycles - s.cycles + 1) / 2, c.ticks = s.ticks + BitVec.ofNat 32 k) ∧
    (∀ code value, code % 32 = Global.tpr → (c.setGlobal code value).ticks = c.ticks) ∧
    c.timerExpired.ticks = c.ticks := by
  intro s c
  have start : Cpu.Steady s s := (reachable.based.follow before).steady
  -- The invariant compares with the count at the start, at every later cycle and under every prescale.
  have steady : Cpu.Steady s c :=
    follow_writes (fun idles steady => steady.congr idles.cycles idles.ticksAt)
      (fun notTicks replaces steady => (steady.replaced notTicks replaces).reschedule)
      (fun steady => steady.timerExpired) (fun reset => absurd reset noReset) noWrite start
  refine ⟨⟨steady.later, steady.gains c.cycles (Nat.le_refl _)⟩, fun code value named => ?_, ?_⟩
  · exact c.setGlobal_ticks named value
  · exact c.timerExpired_ticks

/-- A machine after its reset, with a move of a literal as its first instruction. -/
def ticking : Machine (DeviceBus FlatMemory) :=
  powerOn Variant.e132t.config (({} : FlatMemory).loadHalves 0xfffffff8 [0x6621])

/-- Time passes, a change of prescale is deferred and then applied, and the instruction runs. -/
def tickingMoves : List Move :=
  [.host (.advance 100), .host (.setGlobal Global.tpr 0x84050000), .host (.advance 50),
    .host .timerExpired, .openSlice 1, .instruction, .closeSlice]

/-- None of these writes the timer register if the instruction moves into a local register. -/
lemma tickingMoves_only (m : Machine (DeviceBus FlatMemory)) {code : Nat} {value : Word}
    (fetched : (fetchNext.run (m.follow (tickingMoves.take 5))).1 =
      .ok (.moveImmediate ⟨.locals, code⟩ value)) :
    WritesOnly (fun _ code _ => code % 32 ≠ Global.tr) m tickingMoves := by
  have last (b : Machine (DeviceBus FlatMemory)) :
      WritesOnly (fun _ code _ => code % 32 ≠ Global.tr) b [.closeSlice] :=
    writesOnly_cons nofun nofun trivial
  refine writesOnly_cons nofun nofun (writesOnly_cons nofun ?_ (writesOnly_cons nofun nofun
    (writesOnly_cons nofun nofun (writesOnly_cons nofun nofun ⟨?_, last _⟩))))
  · rintro _ _ ⟨⟩
    decide
  · intro c code' value' writes
    cases writes with
    | register other => cases fetched.symm.trans (congrArg Prod.fst other)
    | literal other => cases fetched.symm.trans (congrArg Prod.fst other)

/-- The moves take 151 cycles, and so at most 76 ticks. -/
theorem ticking_steady :
    ((ticking.follow [.host .reset]).follow tickingMoves).cpu.cycles =
      (ticking.follow [.host .reset]).cpu.cycles + 151 ∧
    ∃ k ≤ 76, ((ticking.follow [.host .reset]).follow tickingMoves).cpu.ticks =
      (ticking.follow [.host .reset]).cpu.ticks + BitVec.ofNat 32 k := by
  have cycles : ((ticking.follow [.host .reset]).follow tickingMoves).cpu.cycles =
    (ticking.follow [.host .reset]).cpu.cycles + 151 := by decide +kernel
  have fetched : (fetchNext.run ((ticking.follow [.host .reset]).follow (tickingMoves.take 5))).1 =
      .ok (.moveImmediate ⟨.locals, 2⟩ 1) := by
    decide +kernel
  have noWrite := tickingMoves_only (ticking.follow [.host .reset]) fetched
  have reachable : Cpu.Reachable Variant.e132t.config ticking.cpu := .powerOn
  obtain ⟨⟨-, k, few, gained⟩, -⟩ :=
    ticks_steady reachable [.host .reset] tickingMoves (by decide) noWrite
  refine ⟨cycles, k, ?_, gained⟩
  rw [cycles] at few
  omega

end Machine

end E1Machine
