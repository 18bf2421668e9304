import E1Machine.Bus.Flat
import E1Machine.Proofs.Confinement
import E1Machine.Proofs.Frames
import E1Machine.Proofs.Lockout
import E1Machine.Proofs.Recognition

/-!
# Priorities of interrupts

Of all sources that ask for recognition and are enabled, a look for interrupts takes the foremost. The order
is total: each line has a fixed place, and the timer stands between the lines at the place of its tier. So
the four rungs of the timer never compete, and what is driven in addition can only bring a source forward.

Main statement: `Machine.recognition_exact`, what a look for interrupts does in every state.
-/

namespace E1Machine

/-! ## The order -/

/-- The tier at which the timer competes: 3 is the highest. -/
def timerTier (fcr : Word) : BitVec 2 := fcr.extractLsb' 20 2

namespace InterruptSource

/-- Whether the function control register enables a source. Each line has a bit that inhibits it, and an I/O
line needs another one to be set. -/
def enabledBy (fcr : Word) : InterruptSource → Bool
  | timer => !timerInhibited fcr
  | line .int1 => !fcr.getLsbD 28
  | line .int2 => !fcr.getLsbD 29
  | line .int3 => !fcr.getLsbD 30
  | line .int4 => !fcr.getLsbD 31
  | line .io1 => fcr.getLsbD 2 && !fcr.getLsbD 0
  | line .io2 => fcr.getLsbD 6 && !fcr.getLsbD 4
  | line .io3 => fcr.getLsbD 10 && !fcr.getLsbD 8

/-- The place of a source in the order of recognition, where 0 comes first: `IO3`, the timer in tier 3, `INT1`,
tier 2, `INT2`, tier 1, `INT3`, tier 0, `INT4`, `IO1`, `IO2`. -/
def place (fcr : Word) : InterruptSource → Nat
  | line .io3 => 0
  | line .int1 => 2
  | line .int2 => 4
  | line .int3 => 6
  | line .int4 => 8
  | line .io1 => 9
  | line .io2 => 10
  | timer => 7 - 2 * (timerTier fcr).toNat

end InterruptSource

/-! ## The ladder -/

/-- A word under a mask is as expected exactly if its bits under the mask are. -/
lemma masked_iff {mask expected : Word} (places : List Nat)
    (covers : ∀ k < 32, mask.getLsbD k = decide (k ∈ places)) (fits : expected &&& mask = expected)
    (word : Word) :
    word &&& mask = expected ↔ ∀ k ∈ places, word.getLsbD k = expected.getLsbD k := by
  constructor
  · rintro rfl k mem
    rw [BitVec.getLsbD_and]
    by_cases small : k < 32
    · rw [covers k small, decide_eq_true mem, Bool.and_true]
    · rw [BitVec.getLsbD_of_ge word k (Nat.le_of_not_lt small), Bool.false_and]
  · intro same
    apply BitVec.eq_of_getLsbD_eq
    intro k small
    rw [← fits, BitVec.getLsbD_and, BitVec.getLsbD_and, covers k small]
    by_cases mem : k ∈ places
    · rw [same k mem]
    · rw [decide_eq_false mem, Bool.and_false, Bool.and_false]

/-- The tier is the number of bits 21 and 20 of the function control register. -/
lemma toNat_timerTier (fcr : Word) :
    (timerTier fcr).toNat = 2 * (fcr.getLsbD 21).toNat + (fcr.getLsbD 20).toNat := by
  have bits : ∀ tier : BitVec 2,
      tier.toNat = 2 * (tier.getLsbD 1).toNat + (tier.getLsbD 0).toNat := by
    decide
  rw [bits]
  unfold timerTier
  rw [BitVec.getLsbD_extractLsb', BitVec.getLsbD_extractLsb']
  rfl

namespace LadderRung

/-- A rung stands at a place if it takes its source exactly when that is enabled and has this place. -/
def StandsAt (fcr : Word) (rung : LadderRung) (place : Nat) : Prop :=
  rung.enabled fcr = true ↔ rung.source.enabledBy fcr = true ∧ rung.source.place fcr = place

variable (fcr : Word)

/-- The rung of a line stands at the place of the line. -/
lemma line_standsAt {line : InterruptLine} {mask expected : Word} (places : List Nat)
    (covers : ∀ k < 32, mask.getLsbD k = decide (k ∈ places)) (fits : expected &&& mask = expected)
    (enables : (InterruptSource.line line).enabledBy fcr = true ↔
      ∀ k ∈ places, fcr.getLsbD k = expected.getLsbD k) :
    StandsAt fcr ⟨.line line, mask, expected⟩ ((InterruptSource.line line).place fcr) := by
  unfold StandsAt enabled
  rw [beq_iff_eq, masked_iff places covers fits]
  exact enables.symm.trans (and_iff_left rfl).symm

/-- A rung of the timer stands at the place of its tier. -/
lemma timer_standsAt (expected : Word) (fits : expected &&& timerTierMask = expected)
    (enables : timerInhibited expected = false) :
    StandsAt fcr ⟨.timer, timerTierMask, expected⟩ (InterruptSource.timer.place expected) := by
  unfold StandsAt enabled
  rw [beq_iff_eq, masked_iff [20, 21, 23] (by decide) fits]
  have bit : expected.getLsbD 23 = false := enables
  simp only [InterruptSource.enabledBy, InterruptSource.place, timerInhibited, toNat_timerTier,
    List.forall_mem_cons, List.not_mem_nil, false_imp_iff, implies_true, and_true, bit]
  -- Three bits on either side are left, and the places of different tiers differ.
  generalize fcr.getLsbD 20 = a, fcr.getLsbD 21 = b, fcr.getLsbD 23 = c, expected.getLsbD 20 = d,
    expected.getLsbD 21 = e
  revert a b c d e
  decide

/-- The rungs stand in the order of recognition. -/
lemma ladder_standsAt : ∀ (k : Nat) (inside : k < interruptLadder.length),
    StandsAt fcr interruptLadder[k] k
  | 0, _ => line_standsAt fcr [8, 10] (by decide) (by decide)
      (by simp [InterruptSource.enabledBy, and_comm])
  | 1, _ => timer_standsAt fcr 0x00300000 (by decide) (by decide)
  | 2, _ => line_standsAt fcr [28] (by decide) (by decide) (by simp [InterruptSource.enabledBy])
  | 3, _ => timer_standsAt fcr 0x00200000 (by decide) (by decide)
  | 4, _ => line_standsAt fcr [29] (by decide) (by decide) (by simp [InterruptSource.enabledBy])
  | 5, _ => timer_standsAt fcr 0x00100000 (by decide) (by decide)
  | 6, _ => line_standsAt fcr [30] (by decide) (by decide) (by simp [InterruptSource.enabledBy])
  | 7, _ => timer_standsAt fcr 0 (by decide) (by decide)
  | 8, _ => line_standsAt fcr [31] (by decide) (by decide) (by simp [InterruptSource.enabledBy])
  | 9, _ => line_standsAt fcr [0, 2] (by decide) (by decide)
      (by simp [InterruptSource.enabledBy, and_comm])
  | 10, _ => line_standsAt fcr [4, 6] (by decide) (by decide)
      (by simp [InterruptSource.enabledBy, and_comm])
  | k + 11, inside => absurd inside (Nat.not_lt_of_le (Nat.le_add_left 11 k))

end LadderRung

/-! ## The foremost source -/

namespace InterruptSource

variable {isr fcr : Word} {timerPending : Bool}

/-- Whether a source is pending and enabled. -/
def Asks (isr fcr : Word) (timerPending : Bool) (s : InterruptSource) : Prop :=
  s.isPending isr timerPending = true ∧ s.enabledBy fcr = true

/-- Whether a source asks and precedes every other that does. -/
def Foremost (isr fcr : Word) (timerPending : Bool) (s : InterruptSource) : Prop :=
  s.Asks isr fcr timerPending ∧
    ∀ t, t.Asks isr fcr timerPending → t ≠ s → s.place fcr < t.place fcr

/-- Every source has a rung at its place. -/
lemma exists_rung (fcr : Word) (s : InterruptSource) :
    ∃ inside : s.place fcr < interruptLadder.length, interruptLadder[s.place fcr].source = s := by
  cases s with
  | line line => cases line <;> exact ⟨by simp [place, interruptLadder], rfl⟩
  | timer =>
    unfold place
    generalize timerTier fcr = tier
    revert tier
    decide

/-- A source that asks is taken at its rung. -/
lemma Asks.rung {s : InterruptSource} (asks : s.Asks isr fcr timerPending) :
    ∃ inside : s.place fcr < interruptLadder.length, interruptLadder[s.place fcr].source = s ∧
      (interruptLadder[s.place fcr].source.isPending isr timerPending &&
        interruptLadder[s.place fcr].enabled fcr) = true := by
  obtain ⟨inside, source⟩ := exists_rung fcr s
  have stands := LadderRung.ladder_standsAt fcr _ inside
  refine ⟨inside, source, Bool.and_eq_true_iff.mpr ⟨?_, stands.mpr ⟨?_, ?_⟩⟩⟩
  · rw [source]
    exact asks.1
  · rw [source]
    exact asks.2
  · rw [source]

/-- No source is found only if none asks. -/
lemma not_asks_of_resolve (none : resolveInterrupt isr fcr timerPending = none) (s : InterruptSource) :
    ¬ s.Asks isr fcr timerPending := by
  intro asks
  obtain ⟨inside, -, taken⟩ := asks.rung
  rw [resolveInterrupt, Option.map_eq_none_iff, List.find?_eq_none] at none
  exact none _ (List.getElem_mem inside) taken

/-- The source found is the foremost. -/
lemma foremost_of_resolve {s : InterruptSource}
    (found : resolveInterrupt isr fcr timerPending = some s) : s.Foremost isr fcr timerPending := by
  obtain ⟨rung, first, rfl⟩ := Option.map_eq_some_iff.mp found
  obtain ⟨taken, k, inside, rfl, earlier⟩ := List.find?_eq_some_iff_getElem.mp first
  obtain ⟨pending, enabled⟩ := Bool.and_eq_true_iff.mp taken
  obtain ⟨enables, place⟩ := (LadderRung.ladder_standsAt fcr k inside).mp enabled
  refine ⟨⟨pending, enables⟩, fun t asks other => ?_⟩
  obtain ⟨inside', source, taken'⟩ := asks.rung
  rw [place]
  by_contra late
  obtain before | same := Nat.lt_or_eq_of_le (Nat.le_of_not_lt late)
  · -- The rung of `t` would have been found first.
    have passed := earlier _ before
    rw [taken'] at passed
    cases passed
  · subst same
    exact other source.symm

/-- The foremost source is the one found. -/
lemma Foremost.resolve {s : InterruptSource} (foremost : s.Foremost isr fcr timerPending) :
    resolveInterrupt isr fcr timerPending = some s := by
  cases found : resolveInterrupt isr fcr timerPending with
  | none => exact absurd foremost.1 (not_asks_of_resolve found s)
  | some t =>
    have rival := foremost_of_resolve found
    by_contra other
    have ne : t ≠ s := fun same => other (congrArg some same)
    exact Nat.lt_asymm (foremost.2 t rival.1 ne) (rival.2 s foremost.1 ne.symm)

/-- What asks in addition can only bring a source forward. -/
lemma Foremost.mono {isr' : Word} {s : InterruptSource} (foremost : s.Foremost isr fcr timerPending)
    (further : ∀ k, isr.getLsbD k = true → isr'.getLsbD k = true) :
    ∃ t, t.Foremost isr' fcr timerPending ∧ (t = s ∨ t.place fcr < s.place fcr) := by
  have asks : s.Asks isr' fcr timerPending := by
    refine ⟨?_, foremost.1.2⟩
    have pending := foremost.1.1
    cases s with
    | timer => exact pending
    | line line => exact further _ pending
  cases found : resolveInterrupt isr' fcr timerPending with
  | none => exact absurd asks (not_asks_of_resolve found s)
  | some t =>
    have first := foremost_of_resolve found
    refine ⟨t, first, ?_⟩
    by_cases same : t = s
    · exact .inl same
    · exact .inr (first.2 s asks (Ne.symm same))

end InterruptSource

/-! ## Recognition -/

namespace Cpu

/-- Whether a source asks the processor for recognition and is enabled. -/
def Asks (c : Cpu) (s : InterruptSource) : Prop :=
  s.Asks (c.regs.global Global.isr) (c.regs.global Global.fcr) c.timer.pending

/-- Whether a source is the foremost of those that ask the processor. -/
def Foremost (c : Cpu) (s : InterruptSource) : Prop :=
  s.Foremost (c.regs.global Global.isr) (c.regs.global Global.fcr) c.timer.pending

/-- Drives further lines. -/
def drive (c : Cpu) (lines : List InterruptLine) : Cpu :=
  lines.foldl (fun c line => c.setLine line true) c

/-- A processor that differs from another in its input lines only, of which it has more driven. -/
structure Driven (c d : Cpu) : Prop where
  status : d.status = c.status
  lockout : d.lockout = c.lockout
  timer : d.timer = c.timer
  control : d.regs.global Global.fcr = c.regs.global Global.fcr
  lines (k : Nat) (set : (c.regs.global Global.isr).getLsbD k = true) :
    (d.regs.global Global.isr).getLsbD k = true

/-- A line that is driven is one more. -/
lemma setLine_driven (c : Cpu) (line : InterruptLine) : Driven c (c.setLine line true) := by
  have wired : line.index < inputCount := by cases line <;> decide
  have eq : c.setLine line true =
      c.store Global.isr (c.regs.global Global.isr ||| 1#32 <<< line.index) := if_pos wired
  rw [eq]
  refine ⟨Registers.status_setGlobal _ _ _ (by decide), rfl, rfl,
    (Registers.global_setGlobal ..).trans (if_neg (by decide)), fun k set => ?_⟩
  have stored : (c.store Global.isr (c.regs.global Global.isr ||| 1#32 <<< line.index)).regs.global
      Global.isr = c.regs.global Global.isr ||| 1#32 <<< line.index :=
    (Registers.global_setGlobal ..).trans (if_pos rfl)
  rw [stored, BitVec.getLsbD_or, set, Bool.true_or]

/-- Lines that are driven one after another are more. -/
lemma drive_driven (lines : List InterruptLine) : ∀ c : Cpu, Driven c (c.drive lines) := by
  induction lines with
  | nil => exact fun c => ⟨rfl, rfl, rfl, rfl, fun _ => id⟩
  | cons line lines ih =>
    intro c
    have first := c.setLine_driven line
    have rest := ih (c.setLine line true)
    exact ⟨rest.status.trans first.status, rest.lockout.trans first.lockout,
      rest.timer.trans first.timer, rest.control.trans first.control,
      fun k set => rest.lines k (first.lines k set)⟩

/-- What is found once further lines are driven is what was found, or precedes it. -/
lemma Driven.foremost {c d : Cpu} {s : InterruptSource} (driven : Driven c d) (foremost : c.Foremost s) :
    ∃ t, d.Foremost t ∧
      (t = s ∨ t.place (c.regs.global Global.fcr) < s.place (c.regs.global Global.fcr)) := by
  unfold Foremost
  rw [driven.control, driven.timer]
  exact InterruptSource.Foremost.mono foremost driven.lines

/-- The foremost source is due, unless interrupts are locked or held back. -/
lemma Foremost.due {c : Cpu} {s : InterruptSource} (foremost : c.Foremost s)
    (unlocked : c.status.l = false) (free : c.lockout ≤ 0) : c.interruptDue = some s := by
  have closed : ¬ (c.status.l || 0 < c.lockout) = true := by
    rw [unlocked, Bool.false_or, decide_eq_true_eq]
    exact Int.not_lt.mpr free
  unfold interruptDue
  rw [if_neg closed]
  exact InterruptSource.Foremost.resolve foremost

/-- Of the sources that ask, one is foremost. -/
lemma exists_foremost {c : Cpu} {s : InterruptSource} (asks : c.Asks s) : ∃ t, c.Foremost t := by
  cases found : resolveInterrupt (c.regs.global Global.isr) (c.regs.global Global.fcr)
    c.timer.pending with
  | none => exact absurd asks (InterruptSource.not_asks_of_resolve found s)
  | some t => exact ⟨t, InterruptSource.foremost_of_resolve found⟩

/-- An interrupt is due neither while it is locked or held back nor if no source asks. -/
lemma due_none {c : Cpu} (closed : c.status.l = true ∨ 0 < c.lockout ∨ ∀ s, ¬ c.Asks s) :
    c.interruptDue = none := by
  refine c.recognized_iff.mp ?_
  obtain locked | held | quiet := closed
  · exact .inr (.inl locked)
  · exact .inl held
  · refine .inr (.inr ?_)
    by_contra found
    obtain ⟨s, found⟩ := Option.ne_none_iff_exists'.mp found
    exact quiet s (InterruptSource.foremost_of_resolve found).1

/-- A source has been taken: its handler is entered through its own vector, with interrupts locked. A request
of the timer is used up, those of lines are not. -/
structure Takes (s : InterruptSource) (c d : Cpu) : Prop where
  entry : ∃ e, EntersFrame c e d ∧ e.cause = .interrupt s ∧
    e.stacked = [c.returnPc, (c.noteLength c.length).status.bits]
  vector : d.regs.pc = c.entry.vector s.trapNumber
  status : d.status = { (c.noteLength c.length).status.openFrame 2 with
    m := false, t := false, l := true, s := true, i := true }
  requests : d.regs.global Global.isr = c.regs.global Global.isr
  timer : d.timer = { c.timer with pending := c.timer.pending && s != .timer }

/-- The number of a source's trap is one of the table. -/
lemma vector_source (table : TrapEntry) (s : InterruptSource) :
    alignHalf (table.vector s.trapNumber) = table.vector s.trapNumber := by
  have small : s.trapNumber % 64 = s.trapNumber := by
    cases s with
    | timer => rfl
    | line line => cases line <;> rfl
  rw [alignHalf_vector, small]

/-- What is taken is entered through its vector, with its request used up if it is the timer's. -/
lemma takeInterrupt_takes (c : Cpu) (s : InterruptSource) : Takes s c (c.takeInterrupt s) := by
  obtain ⟨timer, kept, taken⟩ : ∃ timer : Timer,
      timer = { c.timer with pending := c.timer.pending && s != .timer } ∧
      c.takeInterrupt s = { c with timer := timer }.enterInterrupt s := by
    cases s with
    | timer =>
      refine ⟨{ c.timer with pending := false }, ?_, rfl⟩
      rw [show (InterruptSource.timer != .timer) = false from rfl, Bool.and_false]
    | line line =>
      refine ⟨c.timer, ?_, rfl⟩
      rw [show (InterruptSource.line line != .timer) = true from rfl, Bool.and_true]
  rw [taken]
  let d : Cpu := { c with timer := timer }
  obtain ⟨e, enters, stacked, status, pc⟩ :=
    d.enterFrame_frame (.interrupt s) (d.entry.vector s.trapNumber) 2
  obtain ⟨e', cause, entries⟩ := d.enterFrame_cause (.interrupt s) (d.entry.vector s.trapNumber) 2
  obtain ⟨regs, lastPc, n, _, -, -, -, changed⟩ :=
    d.enterFrame_enters (.interrupt s) (d.entry.vector s.trapNumber) 2
  obtain ⟨rfl, -⟩ := Array.push_eq_push.mp (enters.entries.symm.trans entries)
  refine ⟨⟨e, ⟨enters.entries, enters.frame, enters.fp, enters.filled, enters.globals⟩, cause,
    stacked⟩, pc.trans (vector_source _ s), ?_, enters.globals _ (by decide) (by decide), ?_⟩
  · refine status.trans ?_
    rw [show EntryCause.isInterrupt (.interrupt s) = true from rfl, Bool.or_true]
    rfl
  · exact (congrArg Cpu.timer changed).trans kept

end Cpu

namespace Machine

variable {β : Type} [Bus β]

/-- A source has been taken, and the host was told so if it is a line, and of nothing else. -/
structure Takes (s : InterruptSource) (m after : Machine β) : Prop where
  cpu : Cpu.Takes s m.cpu after.cpu
  quiet (timer : s = .timer) : after.bus = m.bus
  acknowledged {line : InterruptLine} (taken : s = .line line) :
    after.bus = ((Bus.acknowledge line).run m.bus).2

/-- A look for interrupts takes the source that is due. -/
lemma checkInterrupts_takes {m : Machine β} {s : InterruptSource} (due : m.cpu.interruptDue = some s) :
    Takes s m (checkInterrupts.run m).2 := by
  have check := m.checkInterrupts_eq
  have taken := m.cpu.takeInterrupt_takes s
  rw [due] at check
  rw [check]
  cases s with
  | timer => exact ⟨taken, fun _ => rfl, nofun⟩
  | line line =>
    refine ⟨taken, nofun, ?_⟩
    rintro _ ⟨⟩
    rfl

/-- A look for interrupts does nothing if they are locked, held back, or not asked for by any source that is
enabled. Otherwise it takes the foremost source, and with further lines driven it takes that source or one
that precedes it. -/
theorem recognition_exact (m : Machine β) :
    ((m.cpu.status.l = true ∨ 0 < m.cpu.lockout ∨ ∀ s, ¬ m.cpu.Asks s) →
      checkInterrupts.run m = ((), m)) ∧
    (m.cpu.status.l = false → m.cpu.lockout ≤ 0 → (∃ s, m.cpu.Asks s) →
      ∃ first, m.cpu.Foremost first ∧ Takes first m (checkInterrupts.run m).2 ∧
        ∀ lines, ∃ next, Takes next ⟨m.cpu.drive lines, m.bus⟩
            (checkInterrupts.run ⟨m.cpu.drive lines, m.bus⟩).2 ∧
          (next = first ∨ next.place (m.cpu.regs.global Global.fcr) <
            first.place (m.cpu.regs.global Global.fcr))) := by
  constructor
  · exact fun closed => checkInterrupts_unchanged (m.cpu.recognized_iff.mpr (Cpu.due_none closed))
  · rintro unlocked free ⟨s, asks⟩
    obtain ⟨first, foremost⟩ := Cpu.exists_foremost asks
    refine ⟨first, foremost, checkInterrupts_takes (foremost.due unlocked free), fun lines => ?_⟩
    -- Driven lines can only add to those that ask, so the foremost of them is at most earlier.
    have driven := m.cpu.drive_driven lines
    obtain ⟨next, foremost', order⟩ := driven.foremost foremost
    refine ⟨next, checkInterrupts_takes (m := ⟨m.cpu.drive lines, m.bus⟩) ?_, order⟩
    exact foremost'.due (by rw [driven.status]; exact unlocked) (by rw [driven.lockout]; exact free)

/-- A machine on which the second line is driven and the timer asks in tier 2. -/
def contested : Machine (DeviceBus FlatMemory) :=
  let m := powerOn Variant.e132t.config ({} : FlatMemory)
  let c := (m.cpu.store Global.fcr 0x00200000).setLine .int2 true
  ⟨{ c with timer := { c.timer with pending := true } }, m.bus⟩

/-- In tier 2 the timer precedes the second line, and with the first one driven too it need not be taken. -/
theorem contested_timer : contested.cpu.Asks (.line .int2) ∧
    Takes .timer contested (checkInterrupts.run contested).2 ∧
    ∃ next, Takes next ⟨contested.cpu.drive [.int1], contested.bus⟩
        (checkInterrupts.run ⟨contested.cpu.drive [.int1], contested.bus⟩).2 ∧
      (next = .timer ∨ next.place (contested.cpu.regs.global Global.fcr) < 3) := by
  have asks : contested.cpu.Asks (.line .int2) := ⟨by decide +kernel, by decide +kernel⟩
  have unlocked : contested.cpu.status.l = false := by decide +kernel
  have free : contested.cpu.lockout ≤ 0 := by decide +kernel
  obtain ⟨first, foremost, takes, further⟩ :=
    (recognition_exact contested).2 unlocked free ⟨_, asks⟩
  have due : contested.cpu.interruptDue = some .timer := by decide +kernel
  cases (foremost.due unlocked free).symm.trans due
  have third : InterruptSource.timer.place (contested.cpu.regs.global Global.fcr) = 3 := by
    decide +kernel
  rw [← third]
  exact ⟨asks, takes, further [.int1]⟩

end Machine

end E1Machine
