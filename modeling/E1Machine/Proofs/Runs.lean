import E1Machine.Proofs.Moves

/-!
# The slices of a run

A run serves the timer and makes a slice, again and again until its last cycle is reached or a fault
stops it. `Turns` is one such round, `Cuts` the machines with which slices start, and `Instructs` the
boundaries at which the run starts an instruction. Every slice that completes spends at least one cycle,
so the fuel of `runUntil` plays no part: a run ends with an instruction at one of its boundaries
(`run_ends`).
-/

namespace E1Machine

namespace Machine

variable {β : Type} [Bus β]

/-- The machine after the timer is served. -/
def served (m : Machine β) : Machine β := ⟨m.cpu.serviceTimer, m.bus⟩

/-- The slice that a run up to a cycle makes from a machine. -/
def cut (stop : Nat) (m : Machine β) : Except Fault Nat × Machine β :=
  (slice (m.served.cpu.sliceBudget stop)).run m.served

/-- A round of a run after which the run goes on. -/
def Turns (stop : Nat) (m m' : Machine β) : Prop :=
  m.cpu.cycles < stop ∧ ∃ n, cut stop m = (.ok n, m')

/-- A run up to a cycle makes a slice from a machine on which the timer has just been served. -/
def Cuts (stop : Nat) (m s : Machine β) : Prop :=
  ∃ r, Relation.ReflTransGen (Turns stop) m r ∧ r.cpu.cycles < stop ∧ s = r.served

/-- A run up to a cycle starts an instruction at a boundary of one of its slices. -/
def Instructs (stop : Nat) (m s b : Machine β) : Prop :=
  Cuts stop m s ∧ s.cpu.fault = none ∧ Visits (s.cpu.sliceBudget stop) s b

omit [Bus β] in
/-- Serving the timer takes no time and clears no fault. -/
lemma served_kept (m : Machine β) :
    m.served.cpu.cycles = m.cpu.cycles ∧ m.served.cpu.fault = m.cpu.fault ∧
      m.served.cpu.retired = m.cpu.retired := by
  obtain ⟨regs, timer, eq⟩ := m.cpu.serviceTimer_changes
  unfold served
  rw [eq]
  exact ⟨rfl, rfl, rfl⟩

/-- No slice of a run is empty. -/
lemma Cuts.budget_pos {stop : Nat} {m s : Machine β} (cuts : Cuts stop m s) :
    s.cpu.sliceBudget stop ≠ 0 := by
  obtain ⟨r, -, before, rfl⟩ := cuts
  rw [← r.served_kept.1] at before
  unfold Cpu.sliceBudget
  split
  · split
    · omega
    · decide
  · omega

/-- A slice of a run ends with an instruction at one of its boundaries. -/
lemma cut_ends {stop : Nat} {m r : Machine β} (rounds : Relation.ReflTransGen (Turns stop) m r)
    (before : r.cpu.cycles < stop) (running : r.cpu.fault = none) :
    ∃ b result e, Instructs stop m r.served b ∧ executeOne.run b = (result, e) ∧
      (result = .ok () → r.cpu.cycles < e.cpu.cycles ∧ e.cpu.fault = none) ∧
      cut stop r =
        (result.map fun () => e.cpu.cycles - r.cpu.cycles, ⟨e.cpu.closeSlice, e.bus⟩) := by
  have cuts : Cuts stop m r.served := ⟨r, rounds, before, rfl⟩
  obtain ⟨cycles, fault, -⟩ := r.served_kept
  have alive : r.served.cpu.fault = none := fault.trans running
  obtain ⟨b, result, e, visits, run, -, ends⟩ := slice_ends alive cuts.budget_pos
  refine ⟨b, result, e, ⟨cuts, alive, visits⟩, run, ?_, ?_⟩
  · rintro rfl
    have spent := opened_spent (r.served.cpu.sliceBudget stop) r.served
    have passed := Continues.lasting (Cpu.spent_lasting _) visits spent
    have last := executeOne_spends run
    have quiet : (opened (r.served.cpu.sliceBudget stop) r.served).cpu.fault = none :=
      (Cpu.fault_lasting none).checkInterrupts alive
    exact ⟨by omega, (Cpu.fault_lasting none).executeOne run
      (Continues.lasting (Cpu.fault_lasting none) visits quiet)⟩
  · rw [cycles] at ends
    exact ends

/-- A run makes the slice of a machine and goes on unless a fault stopped that. -/
lemma runUntil_cut (fuel : Nat) {stop : Nat} {m : Machine β} (before : m.cpu.cycles < stop) :
    (runUntil stop (fuel + 1)).run m =
      (match (cut stop m).1 with
        | .error fault => pure (.error fault)
        | .ok _ => runUntil stop fuel : Exec β (Except Fault Unit)).run (cut stop m).2 :=
  runUntil_slices fuel before

/-- With enough fuel, the rounds of a run end with an instruction that stops it or reaches its last
cycle. -/
lemma runUntil_ends {stop : Nat} {m : Machine β} (fuel : Nat) : ∀ {r : Machine β},
    Relation.ReflTransGen (Turns stop) m r → r.cpu.fault = none → r.cpu.cycles < stop →
    stop ≤ r.cpu.cycles + fuel →
    ∃ s b result e, Instructs stop m s b ∧ executeOne.run b = (result, e) ∧
      (result = .ok () → stop ≤ e.cpu.cycles) ∧
      (runUntil stop fuel).run r = (result, ⟨e.cpu.closeSlice, e.bus⟩) := by
  induction fuel with
  | zero => exact fun _ _ before enough => absurd before (Nat.not_lt.mpr enough)
  | succ fuel ih =>
    intro r rounds running before enough
    obtain ⟨b, result, e, instructs, run, progress, ends⟩ := cut_ends rounds before running
    have loop := runUntil_cut fuel before
    rw [ends] at loop
    cases result with
    | error fault => exact ⟨_, b, _, e, instructs, run, nofun, loop⟩
    | ok =>
      obtain ⟨later, quiet⟩ := progress rfl
      by_cases more : e.cpu.cycles < stop
      · -- The slice has spent at least the one cycle that its fuel stands for.
        have next := rounds.tail ⟨before, _, ends⟩
        obtain ⟨s, b', result, e', instructs, run, reached, rest⟩ :=
          ih next quiet more (by show stop ≤ e.cpu.cycles + fuel; omega)
        exact ⟨s, b', result, e', instructs, run, reached, loop.trans rest⟩
      · refine ⟨_, b, .ok (), e, instructs, run, fun _ => Nat.not_lt.mp more, loop.trans ?_⟩
        cases fuel with
        | zero => rfl
        | succ fuel => exact runUntil_reached fuel more

/-- The cycle at which a run of so many cycles ends. -/
def runEnd (m : Machine β) (cycles : Nat) : Nat := min (m.cpu.cycles + cycles) Cpu.lastCycle

/-- A run ends with an instruction at one of its boundaries, which stops it or reaches its last cycle, and
after that the timer is served. -/
theorem run_ends {m : Machine β} {cycles : Nat} (running : m.cpu.fault = none)
    (before : m.cpu.cycles < m.runEnd cycles) :
    ∃ s b result e, Instructs (m.runEnd cycles) m s b ∧ executeOne.run b = (result, e) ∧
      match result with
      | .error fault => (run cycles).run m = (.error fault, ⟨e.cpu.closeSlice, e.bus⟩)
      | .ok () => m.runEnd cycles ≤ e.cpu.cycles ∧
        (run cycles).run m =
          (.ok ⟨e.cpu.cycles - m.cpu.cycles, e.cpu.retired - m.cpu.retired⟩,
            served ⟨e.cpu.closeSlice, e.bus⟩) := by
  obtain ⟨s, b, result, e, instructs, run, reached, ends⟩ :=
    runUntil_ends cycles .refl running before (Nat.min_le_left _ _)
  refine ⟨s, b, result, e, instructs, run, ?_⟩
  have whole := m.run_eq cycles
  unfold runEnd at ends
  rw [ends] at whole
  cases result with
  | error fault => exact whole
  | ok =>
    obtain ⟨spent, -, retired⟩ := served_kept ⟨e.cpu.closeSlice, e.bus⟩
    refine ⟨reached rfl, whole.trans ?_⟩
    show (Except.ok (RunOutcome.mk ((served ⟨e.cpu.closeSlice, e.bus⟩).cpu.cycles - _)
      ((served ⟨e.cpu.closeSlice, e.bus⟩).cpu.retired - _)), _) = _
    rw [spent, retired]
    rfl

/-- A run that completes has served the timer last. -/
lemma run_served {m m' : Machine β} {cycles : Nat} {outcome : RunOutcome}
    (ran : (run cycles).run m = (.ok outcome, m')) : ∃ r, m' = served r := by
  have whole := m.run_eq cycles
  rw [ran] at whole
  rcases ends : (runUntil (min (m.cpu.cycles + cycles) Cpu.lastCycle) cycles).run m with ⟨fault | _, r⟩
  · rw [ends] at whole
    cases whole
  · rw [ends] at whole
    exact ⟨r, congrArg Prod.snd whole⟩

end Machine

end E1Machine
