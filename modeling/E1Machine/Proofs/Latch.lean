import E1Machine.Bus.Flat
import E1Machine.Proofs.Deadlines
import E1Machine.Proofs.Resetting

/-!
# The latched fault

A fault stops a machine until the next reset. A slice looks for it before anything else. A run leaves the
look to its slices: it serves the timer first, and makes no slice when its last cycle is already reached.
So a latched fault keeps slices and steps from doing anything, but not the callback of a run, and a run of
no cycles does not even report it.

Main statement: `Machine.latched_calls`.
-/

namespace E1Machine

namespace Cpu

/-- A write of a global register latches no fault. -/
lemma setGlobal_fault (c : Cpu) (code : Nat) (value : Word) :
    (c.setGlobal code value).fault = c.fault := by
  obtain ⟨regs, timer, entry, lockout, reports, -, eq⟩ := c.setGlobal_changes code value
  rw [eq]

/-- A reset clears a latched fault. -/
lemma reset_fault (c : Cpu) : c.reset.fault = none := c.reset_recovered.fault

/-- The timer is not served while no callback is due. -/
lemma serviceTimer_of_onTime {c : Cpu} (onTime : c.OnTime) : c.serviceTimer = c := by
  unfold serviceTimer
  cases next : c.nextDeadline with
  | none => rfl
  | some due => exact if_neg (Nat.not_le.mpr (onTime due next))

end Cpu

/-- Only a reset clears a latched fault. -/
lemma HostAction.act_fault (action : HostAction) (c : Cpu) (other : action ≠ .reset) :
    (action.act c).fault = c.fault := by
  cases action with
  | reset => exact absurd rfl other
  | setInput line on =>
    unfold act Cpu.setInput
    dsimp only
    split
    · rfl
    · rfl
  | setGlobal code value => exact c.setGlobal_fault code value
  | setLocal code value => rfl
  | advance cycles => rfl
  | timerExpired =>
    obtain ⟨regs, timer, eq⟩ := c.timerExpired_changes
    show c.timerExpired.fault = c.fault
    rw [eq]

namespace Machine

variable {β : Type} [Bus β] {m : Machine β} {fault : Fault}

/-- A run of a machine with a latched fault serves the timer and does nothing else. -/
lemma run_stopped (latched : m.cpu.fault = some fault) (cycles : Nat) :
    (run cycles).run m =
      (if m.cpu.cycles < m.runEnd cycles then .error fault else .ok ⟨0, 0⟩, m.served) := by
  have whole := m.run_eq cycles
  obtain ⟨spent, kept, retired⟩ := m.served_kept
  -- Without a slice the run serves the timer of the machine that it started with.
  have ends (none : (runUntil (m.runEnd cycles) cycles).run m = (.ok (), m)) :
      (run cycles).run m = (.ok ⟨0, 0⟩, m.served) := by
    unfold runEnd at none
    rw [none] at whole
    refine whole.trans ?_
    show (Except.ok (RunOutcome.mk (m.served.cpu.cycles - _) (m.served.cpu.retired - _)), _) = _
    rw [spent, retired, Nat.sub_self, Nat.sub_self]
    rfl
  cases cycles with
  | zero =>
    have reached : ¬ m.cpu.cycles < m.runEnd 0 := Nat.not_lt.mpr (Nat.min_le_left _ _)
    rw [if_neg reached]
    exact ends rfl
  | succ n =>
    by_cases before : m.cpu.cycles < m.runEnd (n + 1)
    · have loop := runUntil_cut n before
      have sliced : cut (m.runEnd (n + 1)) m = (.error fault, m.served) :=
        slice_stopped (kept.trans latched) _
      rw [sliced] at loop
      unfold runEnd at loop
      rw [loop] at whole
      rw [if_pos before]
      exact whole
    · rw [if_neg before]
      exact ends (runUntil_reached n before)

/-- A call other than a reset leaves the fault latched. -/
lemma call_stopped (latched : m.cpu.fault = some fault) {c : Call} (other : c ≠ .host .reset) :
    (m.call c).cpu.fault = some fault := by
  cases c with
  | host action =>
    have notReset : action ≠ .reset := fun eq => other (congrArg Call.host eq)
    exact (action.act_fault m.cpu notReset).trans latched
  | slice cycles =>
    show ((slice cycles).run m).2.cpu.fault = some fault
    rw [slice_stopped latched]
    exact latched
  | run cycles =>
    show ((run cycles).run m).2.cpu.fault = some fault
    rw [run_stopped latched]
    exact m.served_kept.2.1.trans latched

/-- The fault stays latched over a session without a reset. -/
lemma session_stopped (calls : List Call) : ∀ {m : Machine β}, m.cpu.fault = some fault →
    .host .reset ∉ calls → (m.session calls).cpu.fault = some fault := by
  induction calls with
  | nil => exact fun latched _ => latched
  | cons first calls ih =>
    intro m latched noReset
    rw [List.mem_cons, not_or] at noReset
    obtain ⟨other, rest⟩ := noReset
    exact ih (call_stopped latched (Ne.symm other)) rest

/-- What a latched fault prevents. Slices and steps report it and change nothing. A run serves the timer,
and then reports it if there is a cycle left to run; so it reports the fault and changes nothing exactly if
there is one and the timer has nothing to do, as it has not when no callback is due. No calls but a reset
take the fault off. -/
theorem latched_calls (latched : m.cpu.fault = some fault) :
    (∀ cycles, (slice cycles).run m = (.error fault, m)) ∧ step.run m = (.error fault, m) ∧
    (∀ cycles, (run cycles).run m =
      (if m.cpu.cycles < m.runEnd cycles then .error fault else .ok ⟨0, 0⟩, m.served)) ∧
    (∀ cycles, (run cycles).run m = (.error fault, m) ↔
      m.cpu.cycles < m.runEnd cycles ∧ m.served = m) ∧
    (m.cpu.OnTime → m.served = m) ∧
    (∀ calls, Call.host .reset ∉ calls → (m.session calls).cpu.fault = some fault) ∧
    (m.call (.host .reset)).cpu.fault = none := by
  refine ⟨slice_stopped latched, slice_stopped latched 1, run_stopped latched, fun cycles => ?_,
    fun onTime => ?_, fun calls => session_stopped calls latched, m.cpu.reset_fault⟩
  · rw [run_stopped latched]
    constructor
    · intro same
      obtain ⟨result, served⟩ := Prod.mk.inj same
      refine ⟨?_, served⟩
      by_contra reached
      rw [if_neg reached] at result
      cases result
    · rintro ⟨before, served⟩
      rw [if_pos before, served]
  · unfold served
    rw [Cpu.serviceTimer_of_onTime onTime]

/-- A machine that has stopped at a word without meaning, with the callback of the timer due. -/
def stoppedLate : Machine (DeviceBus FlatMemory) :=
  (powerOn Variant.e132t.config (({} : FlatMemory).loadHalves 0x1000 [0xcf00])).session
    [.host .reset, .host (.setGlobal Global.fcr 0), .host (.setGlobal Global.pc 0x1000), .slice 1]

/-- Slices of this machine change nothing, but a run of five cycles serves the timer. -/
theorem stoppedLate_calls :
    stoppedLate.cpu.fault = some (.unimplementedOpcode 0x1000 0xcf00) ∧
    (∀ cycles, (slice cycles).run stoppedLate =
      (.error (.unimplementedOpcode 0x1000 0xcf00), stoppedLate)) ∧
    (run 5).run stoppedLate = (.error (.unimplementedOpcode 0x1000 0xcf00), stoppedLate.served) := by
  have latched : stoppedLate.cpu.fault = some (.unimplementedOpcode 0x1000 0xcf00) := by
    decide +kernel
  have before : stoppedLate.cpu.cycles < stoppedLate.runEnd 5 := by decide +kernel
  obtain ⟨slices, -, runs, -⟩ := latched_calls latched
  refine ⟨latched, slices, (runs 5).trans ?_⟩
  rw [if_pos before]

/-- A run of no cycles completes although a fault is latched, and a run of five makes the timer's callback
before it reports the fault. -/
theorem latch_bypassed :
    stoppedLate.cpu.fault = some (.unimplementedOpcode 0x1000 0xcf00) ∧
    ((run 0).run stoppedLate).1 = .ok ⟨0, 0⟩ ∧
    stoppedLate.cpu.timer.pending = false ∧
    ((run 5).run stoppedLate).2.cpu.timer.pending = true := by
  decide +kernel

end Machine

end E1Machine
