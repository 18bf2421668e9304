import E1Machine.Bus.Flat
import E1Machine.Bus.Traced
import E1Machine.Proofs.Moves
import E1Machine.Proofs.Slicing
import E1Machine.Proofs.Timekeeping
import Mathlib

/-!
# Elapsed time

How much time has passed shows in three places: the count of cycles, the base from which ticks are
counted, and the callback that is scheduled. Writes of the timer registers move the base and the callback,
but nothing else depends on them before the host makes the callback: neither what a register holds, nor
what an instruction costs, nor which interrupt is due. A program can learn the time from the tick count
alone, and a slice that does not read it runs the same at any time (`elapsed_time_invisible`).
-/

namespace E1Machine

namespace Cpu

/-- A processor on which no time has passed. -/
def timeless (c : Cpu) : Cpu :=
  { c with
    cycles := 0
    timer := { c.timer with baseCycle := 0, baseValue := 0, deadline := none } }

/-- Two processors that differ at most in the time that has passed: in the count of cycles, the base of
the tick count, and the scheduled callback. -/
def SameButTime (c d : Cpu) : Prop := c.timeless = d.timeless

/-- What does not look at the time reads the same. -/
lemma SameButTime.reads {α : Type} {c d : Cpu} (r : SameButTime c d) (f : Cpu → α)
    (looks : ∀ c, f c = f c.timeless) : f c = f d := by
  unfold SameButTime at r
  rw [looks, r, ← looks]

/-- A step that does the same whatever the time keeps processors the same but for time. -/
lemma SameButTime.keep {c d : Cpu} (r : SameButTime c d) (f g : Cpu → Cpu)
    (acts : ∀ c, (f c).timeless = g c.timeless) : SameButTime (f c) (f d) := by
  unfold SameButTime at r ⊢
  rw [acts, acts, r]

/-- Scheduling moves only the callback. -/
lemma timeless_reschedule (c : Cpu) : c.reschedule.timeless = c.timeless := by
  obtain ⟨deadline, scheduled⟩ := c.reschedule_changes
  rw [scheduled]
  rfl

/-- The difference in time that has passed is one about timekeeping: the steps of timekeeping keep it, and so does
everything that works on the core. -/
lemma sameButTime_timekeeping : Timekeeping SameButTime where
  core_eq r := r.reads core fun _ => rfl
  withCore core r := r.keep (·.withCore core) (·.withCore core) fun _ => rfl
  scale_eq r := r.reads (·.timer.scale) fun _ => rfl
  due_eq r := r.reads interruptDue fun _ => rfl
  spend n r := r.keep (·.spend n) (fun c => { c with remaining := c.remaining - n }) fun _ => rfl
  block n r := r.keep (·.block n) (·.block n) fun _ => rfl
  retire r := r.keep Cpu.retire Cpu.retire fun _ => rfl
  expires_iff {c d} r := by
    rw [r.reads (·.retire.lockout) fun _ => rfl]
  reschedule r := r.keep Cpu.reschedule id timeless_reschedule
  setPrescale tpr r := r.keep (fun c => { c with timer := c.timer.setPrescale c.cycles tpr })
    (fun c => { c with timer := { c.timer with
      scale := tpr.extractLsb' 26 5 &&& c.timer.scaleMask.setWidth 5
      period := (tpr.extractLsb' 16 8).toNat + 2 } }) fun _ => rfl
  rebase value r := r.keep (fun c => { c with timer := c.timer.rebase c.cycles value }) id fun _ => rfl
  serve r := r.keep (fun c => { c with timer := { c.timer with pending := false } })
    (fun c => { c with timer := { c.timer with pending := false } }) fun _ => rfl

end Cpu

namespace Machine

variable {β : Type} [Bus β]

/-- Two machines on the same bus whose processors differ at most in the time that has passed. -/
def SameButTime (m m' : Machine β) : Prop := m.cpu.SameButTime m'.cpu ∧ m.bus = m'.bus

/-- An instruction that does not read the tick count runs the same at any time. -/
lemma SameButTime.executeOne {b b' : Machine β} (same : SameButTime b b') (quiet : ¬ b.ReadsTicks) :
    (Machine.executeOne.run b).1 = (Machine.executeOne.run b').1 ∧
      SameButTime (Machine.executeOne.run b).2 (Machine.executeOne.run b').2 :=
  executeOne_related Cpu.sameButTime_timekeeping.cycleCongruence .refl same.1 same.2
    fun i fetched reads => absurd ⟨i, fetched, reads⟩ quiet

/-- So do the instructions of a slice: what is left of the budget is no time that has passed, and both
sides go on or end together. -/
lemma SameButTime.executeWhile (fuel : Nat) : ∀ {b b' : Machine β}, SameButTime b b' →
    (∀ c, Relation.ReflTransGen Continues b c → ¬ c.ReadsTicks) →
    ((Machine.executeWhile fuel).run b).1 = ((Machine.executeWhile fuel).run b').1 ∧
      SameButTime ((Machine.executeWhile fuel).run b).2 ((Machine.executeWhile fuel).run b').2 := by
  induction fuel with
  | zero => exact fun same _ => ⟨rfl, same⟩
  | succ fuel ih =>
    intro b b' same quiet
    obtain ⟨result, after⟩ := same.executeOne (quiet b .refl)
    rcases run : Machine.executeOne.run b with ⟨outcome, c⟩
    rcases run' : Machine.executeOne.run b' with ⟨outcome', c'⟩
    rw [run, run'] at result after
    cases result
    cases outcome with
    | error fault =>
      rw [executeWhile_stops run, executeWhile_stops run']
      exact ⟨rfl, after⟩
    | ok _ =>
      -- Both sides are charged alike, so that they have as much left to go on with.
      have left : c.cpu.remaining = c'.cpu.remaining := after.1.reads (·.remaining) fun _ => rfl
      rw [executeWhile_completes run, executeWhile_completes run', ← left]
      split
      · next more => exact ih after fun d passes => quiet d (.head ⟨run, more⟩ passes)
      · exact ⟨rfl, after⟩

/-- Slices open the same at any time. -/
lemma SameButTime.opened {m m' : Machine β} (same : SameButTime m m') (cycles : Nat) :
    SameButTime (Machine.opened cycles m) (Machine.opened cycles m') := by
  have opens : (m.cpu.openSlice (min cycles Cpu.maxBudget)).SameButTime
      (m'.cpu.openSlice (min cycles Cpu.maxBudget)) :=
    same.1.keep (·.openSlice _) (·.openSlice _) fun _ => rfl
  have related := checkInterrupts_related (β := β) Cpu.sameButTime_timekeeping.cycleCongruence .refl
  exact (@related ⟨_, m.bus⟩ ⟨_, m'.bus⟩ opens same.2).2

/-- Elapsed time is invisible. Two processors that differ at most in the count of cycles, the base of the
tick count and the scheduled callback run a slice alike on the same bus, unless one of its instructions
reads the tick count: the slice has the same result and spends as many cycles, leaves the bus in the same
state, with everything that was asked of the host, and leaves the processors the same but for time. -/
theorem elapsed_time_invisible {m m' : Machine (DeviceBus (Traced β))} (cycles : Nat)
    (same : m.cpu.SameButTime m'.cpu) (bus : m.bus = m'.bus)
    (quiet : ∀ b, Visits cycles m b → ¬ b.ReadsTicks) :
    let e := ((slice cycles).run m).2
    let e' := ((slice cycles).run m').2
    ((slice cycles).run m).1 = ((slice cycles).run m').1 ∧
      (∃ spent, e.cpu.cycles = m.cpu.cycles + spent ∧ e'.cpu.cycles = m'.cpu.cycles + spent) ∧
      e.cpu.SameButTime e'.cpu ∧ e.bus = e'.bus := by
  intro e e'
  have alike : SameButTime m m' := ⟨same, bus⟩
  have latch : m.cpu.fault = m'.cpu.fault := same.reads (·.fault) fun _ => rfl
  cases fault : m.cpu.fault with
  | some fault' =>
    have stopped := slice_stopped fault cycles
    have stopped' := slice_stopped (latch.symm.trans fault) cycles
    simp only [e, e']
    rw [stopped, stopped']
    exact ⟨rfl, ⟨0, rfl, rfl⟩, alike⟩
  | none =>
    have running' := latch.symm.trans fault
    by_cases positive : cycles = 0
    · subst positive
      simp only [e, e']
      rw [slice_zero fault, slice_zero running']
      exact ⟨rfl, ⟨0, rfl, rfl⟩, alike⟩
    · obtain ⟨result, after⟩ := (alike.opened cycles).executeWhile (min cycles Cpu.maxBudget) quiet
      obtain ⟨spent, counted, left, ends⟩ := slice_spends fault positive
      obtain ⟨spent', counted', left', ends'⟩ := slice_spends running' positive
      -- Both loops leave the same of the same budget.
      have same : spent = spent' := by
        have leaves := after.1.reads (·.remaining) fun _ => rfl
        rw [left, left'] at leaves
        omega
      have closed := after.1.keep Cpu.closeSlice Cpu.closeSlice fun _ => rfl
      simp only [e, e']
      rw [ends, ends', ← same, result]
      exact ⟨rfl, ⟨spent, counted, counted'.trans (by rw [same])⟩, closed, after.2⟩

/-- A device that is reset at some cycle, with a program that writes the timer prescaler. -/
def resetAt (cycle : Nat) : Machine (DeviceBus (Traced FlatMemory)) :=
  (powerOn Variant.e132t.config
    (⟨({} : FlatMemory).loadHalves 0xfffffff8 [0x7914, 0x6455], #[]⟩ : Traced FlatMemory)).session
    [.host (.advance cycle), .host .reset]

/-- The program runs the same from the first cycle and from the thousandth. -/
theorem resetAt_any_cycle :
    (resetAt 0).cpu.SameButTime (resetAt 1000).cpu ∧ (resetAt 0).bus = (resetAt 1000).bus ∧
    (∀ b, Visits 2 (resetAt 0) b → ¬ b.ReadsTicks) ∧
    ((slice 2).run (resetAt 1000)).1 = .ok 2 ∧
    ((slice 2).run (resetAt 0)).2.bus = ((slice 2).run (resetAt 1000)).2.bus := by
  have same : (resetAt 0).cpu.SameButTime (resetAt 1000).cpu := by
    unfold Cpu.SameButTime
    decide +kernel
  have bus : (resetAt 0).bus = (resetAt 1000).bus := by
    simp only [resetAt, session, call]
  have quiet : ∀ b, Visits 2 (resetAt 0) b → ¬ b.ReadsTicks := by
    intro b visits
    obtain first | second := visits.first_or_second (by decide +kernel)
    · rw [first]
      decide +kernel
    · rw [second]
      decide +kernel
  have spent : ((slice 2).run (resetAt 0)).1 = .ok 2 := by decide +kernel
  have alike := elapsed_time_invisible 2 same bus quiet
  exact ⟨same, bus, quiet, alike.1.symm.trans spent, alike.2.2.2⟩

end Machine

end E1Machine
