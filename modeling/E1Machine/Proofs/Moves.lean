import E1Machine.Proofs.Slices

/-!
# Machines under their hosts

What happens to a machine is a sequence of moves: its host acts on it, a slice opens, an instruction
runs, a slice closes. Every call of a host is such a sequence (`call_reaches`), so that what holds for
all sequences of moves holds for all runs, however they are cut into slices and whatever the host does in
between.
-/

namespace E1Machine

/-- What a host does to a processor that is not running. -/
inductive HostAction where
  /-- Resets it. -/
  | reset
  /-- Drives an input line. -/
  | setInput (line : Nat) (on : Bool)
  /-- Writes a global register. -/
  | setGlobal (code : Nat) (value : Word)
  /-- Writes a register of the current frame. -/
  | setLocal (code : Nat) (value : Word)
  /-- Lets time pass. -/
  | advance (cycles : Nat)
  /-- Makes the timer's callback. -/
  | timerExpired
  deriving DecidableEq, Repr

/-- A move of a machine. -/
inductive Move where
  /-- The host acts. -/
  | host (action : HostAction)
  /-- A slice opens, with its look for interrupts. -/
  | openSlice (budget : Nat)
  /-- An instruction cycle. -/
  | instruction
  /-- A slice closes. -/
  | closeSlice
  deriving DecidableEq, Repr

/-- A call of a host. -/
inductive Call where
  /-- An action. -/
  | host (action : HostAction)
  /-- A slice of so many cycles; a step is a slice of one. -/
  | slice (cycles : Nat)
  /-- A run of so many cycles. -/
  | run (cycles : Nat)
  deriving DecidableEq, Repr

/-- What an action does. -/
def HostAction.act : HostAction → Cpu → Cpu
  | reset => Cpu.reset
  | setInput line on => (·.setInput line on)
  | setGlobal code value => (·.setGlobal code value)
  | setLocal code value => (·.modifyRegs (·.setInFrame code value))
  | advance cycles => (·.advance cycles)
  | timerExpired => Cpu.timerExpired

namespace Machine

variable {β : Type} [Bus β]

/-- The machine after a move. -/
def move (m : Machine β) : Move → Machine β
  | .host action => ⟨action.act m.cpu, m.bus⟩
  | .openSlice budget => (checkInterrupts.run ⟨m.cpu.openSlice budget, m.bus⟩).2
  | .instruction => (executeOne.run m).2
  | .closeSlice => ⟨m.cpu.closeSlice, m.bus⟩

/-- The machine after a sequence of moves. -/
def follow (m : Machine β) : List Move → Machine β
  | [] => m
  | first :: moves => (m.move first).follow moves

/-- The machine after a call. -/
def call (m : Machine β) : Call → Machine β
  | .host action => ⟨action.act m.cpu, m.bus⟩
  | .slice cycles => ((slice cycles).run m).2
  | .run cycles => ((run cycles).run m).2

/-- The machine after a sequence of calls. -/
def session (m : Machine β) : List Call → Machine β
  | [] => m
  | first :: calls => (m.call first).session calls

/-- A sequence of moves can be made in two parts. -/
lemma follow_append (before after : List Move) : ∀ m : Machine β,
    m.follow (before ++ after) = (m.follow before).follow after := by
  induction before with
  | nil => exact fun _ => rfl
  | cons first before ih => exact fun m => ih (m.move first)

/-! ## Calls are moves -/

/-- Whether a machine comes from another by moves. -/
def Reaches (m m' : Machine β) : Prop := ∃ moves, m.follow moves = m'

/-- A machine comes from itself by no moves. -/
lemma Reaches.refl (m : Machine β) : Reaches m m := ⟨[], rfl⟩

/-- What comes from a machine by moves goes on to what comes from it by moves. -/
lemma Reaches.trans {m m' m'' : Machine β} (first : Reaches m m') (second : Reaches m' m'') :
    Reaches m m'' := by
  obtain ⟨before, rfl⟩ := first
  obtain ⟨after, rfl⟩ := second
  exact ⟨before ++ after, follow_append before after m⟩

/-- One move reaches what it leads to. -/
lemma reaches_move (m : Machine β) (first : Move) : Reaches m (m.move first) := ⟨[first], rfl⟩

/-- The boundaries of a slice are reached by moves. -/
lemma Visits.reaches {cycles : Nat} {m b : Machine β} (visits : Visits cycles m b) :
    Reaches m b := by
  induction visits with
  | refl => exact m.reaches_move (.openSlice (min cycles Cpu.maxBudget))
  | @tail b c _ next ih =>
    have runs := b.reaches_move .instruction
    unfold move at runs
    rw [next.1] at runs
    exact ih.trans runs

/-- A slice opens, runs instructions, and closes. -/
lemma slice_reaches (m : Machine β) (cycles : Nat) : Reaches m ((slice cycles).run m).2 := by
  cases running : m.cpu.fault with
  | some fault =>
    rw [slice_stopped running]
    exact .refl m
  | none =>
    cases cycles with
    | zero =>
      rw [slice_zero running]
      exact .refl m
    | succ n =>
      obtain ⟨last, result, e, visits, run, -, ends⟩ := slice_ends running (Nat.succ_ne_zero n)
      have final := last.reaches_move .instruction
      unfold move at final
      rw [run] at final
      rw [ends]
      exact (visits.reaches.trans final).trans (e.reaches_move .closeSlice)

/-- Serving the timer is its callback, or nothing. -/
lemma serviceTimer_reaches (m : Machine β) : Reaches m ⟨m.cpu.serviceTimer, m.bus⟩ := by
  have callback := m.reaches_move (.host .timerExpired)
  unfold Cpu.serviceTimer
  split
  · split
    · exact callback
    · exact .refl m
  · exact .refl m

/-- The loop of a run ends when its cycle is reached. -/
lemma runUntil_reached (fuel : Nat) {stop : Nat} {m : Machine β} (reached : ¬ m.cpu.cycles < stop) :
    (runUntil stop (fuel + 1)).run m = (.ok (), m) := by
  unfold runUntil
  rw [run_bind, run_getCpu, if_neg reached]
  rfl

/-- Until then it serves the timer, makes a slice, and goes on unless a fault stopped that. -/
lemma runUntil_slices (fuel : Nat) {stop : Nat} {m : Machine β} (before : m.cpu.cycles < stop) :
    (runUntil stop (fuel + 1)).run m =
      (match ((slice (m.cpu.serviceTimer.sliceBudget stop)).run
          (⟨m.cpu.serviceTimer, m.bus⟩ : Machine β)).1 with
        | .error fault => pure (.error fault)
        | .ok _ => runUntil stop fuel : Exec β (Except Fault Unit)).run
      ((slice (m.cpu.serviceTimer.sliceBudget stop)).run
          (⟨m.cpu.serviceTimer, m.bus⟩ : Machine β)).2 := by
  rw [runUntil, run_bind, run_getCpu, if_pos before]
  rfl

/-- A run up to a cycle serves the timer and makes slices in turn. -/
lemma runUntil_reaches (stop fuel : Nat) : ∀ m : Machine β,
    Reaches m ((runUntil stop fuel).run m).2 := by
  induction fuel with
  | zero => exact .refl
  | succ fuel ih =>
    intro m
    by_cases before : m.cpu.cycles < stop
    · have served := m.serviceTimer_reaches
      have sliced := served.trans
        (slice_reaches ⟨m.cpu.serviceTimer, m.bus⟩ (m.cpu.serviceTimer.sliceBudget stop))
      rw [runUntil_slices fuel before]
      cases ((slice (m.cpu.serviceTimer.sliceBudget stop)).run
        (⟨m.cpu.serviceTimer, m.bus⟩ : Machine β)).1 with
      | error fault => exact sliced
      | ok n => exact sliced.trans (ih _)
    · rw [runUntil_reached fuel before]
      exact .refl m

/-- What a run does after its slices. -/
lemma run_eq (m : Machine β) (cycles : Nat) :
    (run cycles).run m =
      (match ((runUntil (min (m.cpu.cycles + cycles) Cpu.lastCycle) cycles).run m).1 with
        | .error fault => pure (.error fault)
        | .ok () => do
          modifyCpu (·.serviceTimer)
          let c ← getCpu
          return .ok ⟨c.cycles - m.cpu.cycles, c.retired - m.cpu.retired⟩ :
            Exec β (Except Fault RunOutcome)).run
        ((runUntil (min (m.cpu.cycles + cycles) Cpu.lastCycle) cycles).run m).2 := rfl

/-- A run makes slices up to its last cycle, and then serves the timer unless a fault stopped it. -/
lemma run_reaches (m : Machine β) (cycles : Nat) : Reaches m ((run cycles).run m).2 := by
  have slices := runUntil_reaches (min (m.cpu.cycles + cycles) Cpu.lastCycle) cycles m
  rw [run_eq]
  cases ((runUntil (min (m.cpu.cycles + cycles) Cpu.lastCycle) cycles).run m).1 with
  | error fault => exact slices
  | ok _ => exact slices.trans (serviceTimer_reaches _)

/-- A call is a sequence of moves. -/
theorem call_reaches (m : Machine β) (c : Call) : Reaches m (m.call c) := by
  cases c with
  | host action => exact m.reaches_move (.host action)
  | slice cycles => exact m.slice_reaches cycles
  | run cycles => exact m.run_reaches cycles

/-- A session of calls is a sequence of moves. -/
theorem session_reaches (calls : List Call) : ∀ m : Machine β, Reaches m (m.session calls) := by
  induction calls with
  | nil => exact .refl
  | cons first calls ih => exact fun m => (m.call_reaches first).trans (ih (m.call first))

end Machine

end E1Machine
