import E1Machine.Proofs.Runs
import E1Machine.Proofs.WellFormed

/-!
# Chips

A chip is the processor and its RAM as a host holds them. It books the cycles of a slice when the slice ends; until
then they are what the slice has taken from its budget. While a slice runs the RAM is out of the chip, on the bus of
the machine that runs, and it is put back when the slice ends, also with a fault.

A machine has all cycles in one count, and its RAM always on the bus. Between two calls a chip stands for a machine
on every host bus, and each call does the same to both (`Resting.act_eq`, `Resting.slice_eq`, `Resting.run_eq`).

Main statement: `Chip.session_wellFormed`, what holds of a chip after every session of calls and inside its calls.
-/

namespace E1Machine

/-- The cycles that an action of a host takes. -/
def HostAction.spends (c : Cpu) : HostAction → Nat
  | reset => c.reset.cost .entrySequence
  | advance cycles => cycles
  | setInput _ _ | setGlobal _ _ | setLocal _ _ | timerExpired => 0

/-- An action of a host adds to the count of cycles what it spends. -/
lemma HostAction.act_cycles (action : HostAction) (c : Cpu) :
    (action.act c).cycles = c.cycles + action.spends c := by
  cases action with
  | reset =>
    show c.reset.cycles = c.cycles + c.reset.cost .entrySequence
    rw [c.reset.cost_eq]
    exact c.reset_recovered.cycles
  | setInput line on =>
    show (c.setInput line on).cycles = c.cycles
    unfold Cpu.setInput
    dsimp only
    split <;> rfl
  | setGlobal code value =>
    obtain ⟨regs, timer, entry, lockout, reports, -, eq⟩ := c.setGlobal_changes code value
    show (c.setGlobal code value).cycles = c.cycles
    rw [eq]
  | setLocal code value => rfl
  | advance cycles => rfl
  | timerExpired =>
    obtain ⟨regs, timer, eq⟩ := c.timerExpired_changes
    show c.timerExpired.cycles = c.cycles
    rw [eq]

/-- A processor and its RAM as a host holds them. -/
structure Chip where
  /-- What the device fixes. -/
  config : Config
  /-- The processor. -/
  cpu : Cpu
  /-- The cycles spent before the running slice. -/
  booked : Nat
  /-- The budget of the running slice, zero between slices. -/
  budget : Int
  /-- The on-chip RAM, empty while a slice has it. -/
  iram : Iram

namespace Chip

/-- A chip at power-on. -/
def new (config : Config) : Chip := ⟨config, Cpu.powerOn config, 0, 0, Iram.zeros config.iramSize⟩

/-- The cycles that the running slice has spent. -/
def spent (c : Chip) : Nat := (c.budget - c.cpu.remaining).toNat

/-- All cycles spent. -/
def total (c : Chip) : Nat := c.booked + c.spent

/-- What an action of the host does. -/
def act (c : Chip) (action : HostAction) : Chip :=
  { c with cpu := action.act c.cpu, booked := c.booked + action.spends c.cpu }

/-- Makes the timer's callback if it is due. -/
def serviceTimer (c : Chip) : Chip :=
  match c.cpu.nextDeadline with
  | some due => if due ≤ c.total then c.act .timerExpired else c
  | none => c

/-- The budget of the next slice of a run that ends at a cycle. -/
def sliceBudget (c : Chip) (stop : Nat) : Nat :=
  match c.cpu.nextDeadline with
  | some due => if c.booked < due then min (due - c.booked) (stop - c.booked) else 1
  | none => stop - c.booked

/-- The chip while a slice runs on a processor: the RAM is taken out. -/
def during (c : Chip) (budget : Nat) (cpu : Cpu) : Chip := { c with cpu := cpu, budget := budget, iram := #[] }

/-- The chip after a slice: the RAM is put back, and what the slice has spent is booked. -/
def close (c : Chip) (ram : Iram) : Chip :=
  { c with cpu := c.cpu.closeSlice, booked := c.booked + c.spent, budget := 0, iram := ram }

section

variable {β : Type}

/-- The machine that a chip makes with a host bus. -/
def lend (c : Chip) (host : β) : Machine (DeviceBus β) := ⟨c.cpu, c.config, c.iram, host⟩

variable [Bus β]

/-- Runs until a number of cycles is spent, on a host bus. -/
def slice (cycles : Nat) (c : Chip) (host : β) : Except Fault Nat × Chip × β :=
  match c.cpu.fault with
  | some fault => (.error fault, c, host)
  | none =>
    if cycles = 0 then (.ok 0, c, host)
    else
      let budget := min cycles Cpu.maxBudget
      let opened := c.during budget (c.cpu.openSlice budget)
      let device : DeviceBus β := ⟨c.config, c.iram, host⟩
      let ran := (Machine.executeWhile budget).run (Machine.checkInterrupts.run ⟨opened.cpu, device⟩).2
      let done := { opened with cpu := ran.2.cpu }
      (ran.1.map fun () => done.spent, done.close ran.2.bus.iram, ran.2.bus.host)

/-- Runs slices until a cycle is reached, `fuel` at most. -/
def runUntil (stop : Nat) : Nat → Chip → β → Except Fault Unit × Chip × β
  | 0, c, host => (.ok (), c, host)
  | fuel + 1, c, host =>
    if c.booked < stop then
      let ran := slice (c.serviceTimer.sliceBudget stop) c.serviceTimer host
      match ran.1 with
      | .error fault => (.error fault, ran.2)
      | .ok _ => runUntil stop fuel ran.2.1 ran.2.2
    else (.ok (), c, host)

/-- Runs for a number of cycles and makes the timer's callbacks when they are due. -/
def run (cycles : Nat) (c : Chip) (host : β) : Except Fault RunOutcome × Chip × β :=
  let ran := runUntil (min (c.booked + cycles) Cpu.lastCycle) cycles c host
  match ran.1 with
  | .error fault => (.error fault, ran.2)
  | .ok () =>
    let done := ran.2.1.serviceTimer
    (.ok ⟨done.booked - c.booked, done.cpu.retired - c.cpu.retired⟩, done, ran.2.2)

end

/-- A call of a host. A slice and a run come with the bus on which they work. -/
inductive Call : Type 1 where
  /-- An action; an interrupt line is driven as the input of its index. -/
  | act (action : HostAction)
  /-- A slice of so many cycles; a step is a slice of one. -/
  | slice {β : Type} [Bus β] (host : β) (cycles : Nat)
  /-- A run of so many cycles. -/
  | run {β : Type} [Bus β] (host : β) (cycles : Nat)

/-- The chip after a call, whether that completes or ends with a fault. -/
def call (c : Chip) : Call → Chip
  | .act action => c.act action
  | @Call.slice _ _ host cycles => (c.slice cycles host).2.1
  | @Call.run _ _ host cycles => (c.run cycles host).2.1

/-- The chip after a session of calls. -/
def session (c : Chip) : List Call → Chip
  | [] => c
  | first :: calls => (c.call first).session calls

end Chip

/-! ## Settled machines -/

namespace Machine

variable {β : Type} [Bus β] {config : Config} {m : Machine (DeviceBus β)}

/-- A well-formed machine between two calls. -/
structure Ready (config : Config) (m : Machine (DeviceBus β)) : Prop extends m.WellFormed config where
  idle : m.cpu.remaining = 0

namespace Ready

variable (ready : m.Ready config)
include ready

/-- Serving the timer leaves a machine between two calls. -/
lemma served : m.served.Ready config :=
  ⟨reaches_wellFormed m.serviceTimer_reaches ready.toWellFormed, m.served_remaining.trans ready.idle⟩

/-- A call leaves a machine between two calls. -/
lemma call (call : Call) : (m.call call).Ready config :=
  ⟨reaches_wellFormed (m.call_reaches call) ready.toWellFormed, call_idle ready.idle call⟩

/-- A slice of a run leaves a machine between two calls. -/
lemma cut (stop : Nat) : (m.cut stop).2.Ready config :=
  ready.served.call (.slice (m.served.cpu.sliceBudget stop))

/-- Every slice of a run starts on a machine between two calls. -/
lemma cuts {stop : Nat} {s : Machine (DeviceBus β)} (cuts : Cuts stop m s) : s.Ready config := by
  obtain ⟨r, rounds, -, rfl⟩ := cuts
  suffices r.Ready config from this.served
  induction rounds with
  | refl => exact ready
  | tail _ turns ih =>
    obtain ⟨-, n, ran⟩ := turns
    have next := ih.cut stop
    rw [ran] at next
    exact next

end Ready

end Machine

namespace Chip

variable {α β : Type} {config : Config} {m : Machine (DeviceBus β)}

/-- The chip that a machine between two calls stands for. -/
def settle (m : Machine (DeviceBus β)) : Chip := ⟨m.bus.config, m.cpu, m.cpu.cycles, 0, m.bus.iram⟩

/-- What a call on the chip gives, where this is what it gives on the machine. -/
def settled (ran : α × Machine (DeviceBus β)) : α × Chip × β := (ran.1, settle ran.2, ran.2.bus.host)

/-- A chip does with an action what its machine does. -/
lemma act_settle (m : Machine (DeviceBus β)) (action : HostAction) :
    (settle m).act action = settle ⟨action.act m.cpu, m.bus⟩ := by
  unfold settle act
  rw [action.act_cycles]

/-- Between two calls all cycles spent are booked. -/
lemma total_settle (idle : m.cpu.remaining = 0) : (settle m).total = m.cpu.cycles := by
  show m.cpu.cycles + (0 - m.cpu.remaining).toNat = m.cpu.cycles
  rw [idle]
  rfl

/-- A chip serves its timer as its machine does. -/
lemma serviceTimer_settle (idle : m.cpu.remaining = 0) : (settle m).serviceTimer = settle m.served := by
  have deadline : (settle m).cpu.nextDeadline = m.cpu.nextDeadline := rfl
  unfold serviceTimer Machine.served Cpu.serviceTimer
  rw [total_settle idle, deadline]
  cases m.cpu.nextDeadline with
  | none => rfl
  | some due =>
    dsimp only
    split
    · exact act_settle m .timerExpired
    · rfl

variable [Bus β]

/-- A chip that has stopped with a fault runs no slice. -/
lemma slice_stopped {c : Chip} {fault : Fault} (stopped : c.cpu.fault = some fault) (cycles : Nat) (host : β) :
    c.slice cycles host = (.error fault, c, host) := by
  unfold slice
  rw [stopped]

/-- A slice without a budget does nothing. -/
lemma slice_zero {c : Chip} (running : c.cpu.fault = none) (host : β) : c.slice 0 host = (.ok 0, c, host) := by
  unfold slice
  rw [running, if_pos rfl]

/-- The loop of a slice works on the machine that a settled chip stands for. -/
lemma slice_loops {cycles : Nat} (running : (settle m).cpu.fault = none) (positive : cycles ≠ 0) :
    let looped := (Machine.executeWhile (min cycles Cpu.maxBudget)).run (m.opened cycles)
    let done := (settle m).during (min cycles Cpu.maxBudget) looped.2.cpu
    (settle m).slice cycles m.bus.host =
      (looped.1.map fun () => done.spent, done.close looped.2.bus.iram, looped.2.bus.host) := by
  unfold slice
  rw [running, if_neg positive]
  rfl

omit [Bus β] in
/-- What a slice takes from its budget is what it adds to the count, and the RAM comes back from it. -/
lemma close_settle {looped : Machine (DeviceBus β)} {budget spent : Nat}
    (same : looped.bus.config = m.bus.config) (counted : looped.cpu.cycles = m.cpu.cycles + spent)
    (left : looped.cpu.remaining = budget - spent) :
    let done := (settle m).during budget looped.cpu
    done.spent = spent ∧ done.close looped.bus.iram = settle ⟨looped.cpu.closeSlice, looped.bus⟩ := by
  intro done
  have taken : done.spent = spent := by
    show ((budget : Int) - looped.cpu.remaining).toNat = spent
    omega
  refine ⟨taken, ?_⟩
  show Chip.mk m.bus.config looped.cpu.closeSlice (m.cpu.cycles + done.spent) 0 looped.bus.iram =
    Chip.mk looped.bus.config looped.cpu.closeSlice looped.cpu.cycles 0 looped.bus.iram
  rw [taken, same, counted]

/-- A chip runs a slice as its machine does. -/
lemma slice_settle (ready : m.Ready config) (cycles : Nat) :
    (settle m).slice cycles m.bus.host = settled ((Machine.slice cycles).run m) := by
  have same : ((Machine.slice cycles).run m).2.bus.config = m.bus.config :=
    (ready.call (.slice cycles)).bus.same.trans ready.bus.same.symm
  cases running : m.cpu.fault with
  | some fault =>
    rw [slice_stopped running, Machine.slice_stopped running]
    rfl
  | none =>
    by_cases zero : cycles = 0
    · subst zero
      rw [slice_zero running, Machine.slice_zero running]
      rfl
    · obtain ⟨spent, counted, left, ran⟩ := Machine.slice_spends running zero
      obtain ⟨taken, closed⟩ := close_settle (by rw [ran] at same; exact same) counted left
      rw [slice_loops running zero, ran, taken, closed]
      rfl

/-- A round of a run serves the timer of the chip and makes a slice of the same budget. -/
lemma cut_settle (ready : m.Ready config) (stop : Nat) :
    slice ((settle m).serviceTimer.sliceBudget stop) (settle m).serviceTimer m.bus.host = settled (m.cut stop) := by
  rw [serviceTimer_settle ready.idle]
  exact slice_settle ready.served (m.served.cpu.sliceBudget stop)

/-- A chip runs up to a cycle as its machine does. -/
lemma runUntil_settle (stop fuel : Nat) : ∀ {m : Machine (DeviceBus β)}, m.Ready config →
    runUntil stop fuel (settle m) m.bus.host = settled ((Machine.runUntil stop fuel).run m) := by
  induction fuel with
  | zero => exact fun _ => rfl
  | succ fuel ih =>
    intro m ready
    unfold runUntil
    by_cases before : m.cpu.cycles < stop
    · have next := ready.cut stop
      rw [show (settle m).booked = m.cpu.cycles from rfl, if_pos before, cut_settle ready,
        Machine.runUntil_cut fuel before]
      rcases cutting : m.cut stop with ⟨fault | spent, r⟩
      · rfl
      · rw [cutting] at next
        exact ih next
    · rw [show (settle m).booked = m.cpu.cycles from rfl, if_neg before, Machine.runUntil_reached fuel before]
      rfl

/-- A chip makes a run as its machine does. -/
lemma run_settle (ready : m.Ready config) (cycles : Nat) :
    (settle m).run cycles m.bus.host = settled ((Machine.run cycles).run m) := by
  have idle := Machine.runUntil_idle (min (m.cpu.cycles + cycles) Cpu.lastCycle) cycles ready.idle
  unfold run
  rw [show (settle m).booked = m.cpu.cycles from rfl, runUntil_settle _ _ ready, Machine.run_eq]
  rcases ran : (Machine.runUntil (min (m.cpu.cycles + cycles) Cpu.lastCycle) cycles).run m with ⟨fault | _, r⟩
  · rfl
  · rw [ran] at idle
    show ((Except.ok ⟨(settle r).serviceTimer.booked - m.cpu.cycles,
      (settle r).serviceTimer.cpu.retired - m.cpu.retired⟩ : Except Fault RunOutcome),
      (settle r).serviceTimer, r.bus.host) = _
    rw [serviceTimer_settle (m := r) idle]
    rfl

/-! ## Chips under their hosts -/

/-- What holds of a chip of a configuration at all times. -/
structure WellFormed (config : Config) (c : Chip) : Prop where
  same : c.config = config
  cpu : c.cpu.WellFormed config.clockScaleMask
  counted : c.cpu.cycles = c.total

/-- What holds of a chip between two calls. -/
structure Resting (config : Config) (c : Chip) : Prop extends c.WellFormed config where
  iram : c.iram.size = config.iramSize.bytes
  budget : c.budget = 0
  remaining : c.cpu.remaining = 0

omit [Bus β] in
/-- What stands for a machine between two calls is well-formed and has nothing to book. -/
lemma settle_resting (ready : m.Ready config) : (settle m).Resting config where
  same := ready.bus.same
  cpu := ready.cpu
  counted := (total_settle ready.idle).symm
  iram := ready.ram
  budget := rfl
  remaining := ready.idle

omit [Bus β] in
/-- A chip at power-on is the settled machine at power-on. -/
lemma new_resting (config : Config) : (new config).Resting config :=
  settle_resting (m := Machine.powerOn config ({} : FlatMemory)) ⟨Machine.powerOn_wellFormed config _, rfl⟩

namespace Resting

variable {c : Chip} (resting : c.Resting config)
include resting

omit [Bus β] in
/-- With every host bus a chip at rest makes a machine between two calls. -/
lemma ready (host : β) : (c.lend host).Ready config where
  cpu := resting.cpu
  bus := by
    refine ⟨?_, resting.same⟩
    show c.iram.size = c.config.iramSize.bytes
    rw [resting.same]
    exact resting.iram
  idle := resting.remaining

omit [Bus β] in
/-- The chip stands for each of these machines. -/
lemma settle_eq (host : β) : settle (c.lend host) = c := by
  have counted := resting.counted
  have nothing : c.spent = 0 := by
    unfold spent
    rw [resting.budget, resting.remaining]
    rfl
  unfold total at counted
  rw [nothing, Nat.add_zero] at counted
  show Chip.mk c.config c.cpu c.cpu.cycles 0 c.iram = c
  rw [counted, ← resting.budget]

/-- An action on a resting chip is that on its machine. -/
lemma act_eq (host : β) (action : HostAction) : c.act action = settle ((c.lend host).call (.host action)) := by
  have acted := act_settle (c.lend host) action
  rw [resting.settle_eq host] at acted
  exact acted

/-- A slice of a resting chip is that of its machine. -/
lemma slice_eq (host : β) (cycles : Nat) :
    c.slice cycles host = settled ((Machine.slice cycles).run (c.lend host)) := by
  have ran := slice_settle (resting.ready host) cycles
  rw [resting.settle_eq host] at ran
  exact ran

/-- A run of a resting chip is that of its machine. -/
lemma run_eq (host : β) (cycles : Nat) :
    c.run cycles host = settled ((Machine.run cycles).run (c.lend host)) := by
  have ran := run_settle (resting.ready host) cycles
  rw [resting.settle_eq host] at ran
  exact ran

omit [Bus β] in
/-- Every call brings a chip to rest again, also one that ends with a fault. -/
lemma call (call : Call) : (c.call call).Resting config := by
  cases call with
  | act action =>
    show (c.act action).Resting config
    rw [resting.act_eq ({} : FlatMemory)]
    exact settle_resting ((resting.ready _).call (.host action))
  | slice host cycles =>
    show (c.slice cycles host).2.1.Resting config
    rw [resting.slice_eq]
    exact settle_resting ((resting.ready host).call (.slice cycles))
  | run host cycles =>
    show (c.run cycles host).2.1.Resting config
    rw [resting.run_eq]
    exact settle_resting ((resting.ready host).call (.run cycles))

omit [Bus β] in
/-- A chip rests after every session of calls. -/
lemma session (calls : List Call) : (c.session calls).Resting config := by
  induction calls generalizing c with
  | nil => exact resting
  | cons first calls ih => exact ih (resting.call first)

end Resting

/-! ## Inside calls -/

/-- A chip while a call starts an instruction, and the machine that executes it. -/
inductive Starts (c : Chip) (host : β) : Chip → Machine (DeviceBus β) → Prop where
  /-- A slice starts one at each boundary that it visits. -/
  | slice {cycles : Nat} {b : Machine (DeviceBus β)} (visits : (c.lend host).Visits cycles b) :
    Starts c host (c.during (min cycles Cpu.maxBudget) b.cpu) b
  /-- A run starts one at the boundaries of its slices. -/
  | run {cycles : Nat} {s b : Machine (DeviceBus β)}
    (instructs : Machine.Instructs ((c.lend host).runEnd cycles) (c.lend host) s b) :
    Starts c host ((settle s).during (min (s.cpu.sliceBudget ((c.lend host).runEnd cycles)) Cpu.maxBudget) b.cpu) b

/-- The count of the machine and that of the chip agree at every boundary of a slice. -/
lemma during_wellFormed {s b : Machine (DeviceBus β)} {cycles : Nat} (ready : s.Ready config)
    (visits : s.Visits cycles b) :
    ((settle s).during (min cycles Cpu.maxBudget) b.cpu).WellFormed config ∧
      b.bus.iram.size = config.iramSize.bytes := by
  have inside := Machine.reaches_wellFormed visits.reaches ready.toWellFormed
  have account : b.cpu.account = s.cpu.cycles + (min cycles Cpu.maxBudget : Nat) :=
    Machine.Continues.lasting (Cpu.account_lasting _) visits (Machine.opened_account cycles s)
  have passed : s.cpu.cycles ≤ b.cpu.cycles :=
    Machine.Continues.lasting (Cpu.spent_lasting _) visits (Machine.opened_spent cycles s)
  refine ⟨⟨ready.bus.same, inside.cpu, ?_⟩, inside.ram⟩
  unfold Cpu.account at account
  show b.cpu.cycles = s.cpu.cycles + (((min cycles Cpu.maxBudget : Nat) : Int) - b.cpu.remaining).toNat
  omega

/-- Whatever programs a chip of any configuration runs on whatever buses, and whether the calls of its host complete
or end with a fault, between two calls it is well-formed, with all of its RAM and with no budget. Its slices and runs
are those of the machine that it makes with a bus. It is well-formed too when a call starts an instruction, and all
of the RAM is then in the machine that executes this. Cycles are counted in exact numbers: no counter overflows. -/
theorem session_wellFormed (config : Config) (calls : List Call) :
    let c := (new config).session calls
    c.Resting config ∧
    ∀ {β : Type} [Bus β] (host : β),
      (∀ cycles : Nat, c.slice cycles host = settled ((Machine.slice cycles).run (c.lend host)) ∧
        c.run cycles host = settled ((Machine.run cycles).run (c.lend host))) ∧
      ∀ (inside : Chip) (b : Machine (DeviceBus β)), c.Starts host inside b →
        inside.WellFormed config ∧ b.bus.iram.size = config.iramSize.bytes := by
  intro c
  have resting : c.Resting config := (new_resting config).session calls
  refine ⟨resting, fun host => ⟨fun cycles => ⟨resting.slice_eq host cycles, resting.run_eq host cycles⟩, ?_⟩⟩
  intro inside b starts
  have ready := resting.ready host
  cases starts with
  | slice visits =>
    have kept := during_wellFormed ready visits
    rw [resting.settle_eq host] at kept
    exact kept
  | run instructs =>
    obtain ⟨cuts, -, visits⟩ := instructs
    exact during_wellFormed (ready.cuts cuts) visits

/-- A program of one word without meaning. -/
def stoppedProgram : FlatMemory := ({} : FlatMemory).loadHalves 0x1000 [0xcf00]

/-- A chip that is to run the program. -/
def beforeStop : Chip :=
  (new Variant.e132t.config).session [.act .reset, .act (.setGlobal Global.pc 0x1000)]

/-- The run stops with a fault at its first instruction. The RAM is out of the chip before that, and then back. -/
theorem stopped_rests :
    (∃ inside b, beforeStop.Starts stoppedProgram inside b ∧ inside.iram = #[] ∧ b.bus.iram.size = 0x1000 ∧
      inside.WellFormed Variant.e132t.config) ∧
    (beforeStop.run 5 stoppedProgram).1 = .error (.unimplementedOpcode 0x1000 0xcf00) ∧
    (beforeStop.call (.run stoppedProgram 5)).Resting Variant.e132t.config := by
  obtain ⟨-, calls⟩ := session_wellFormed Variant.e132t.config [.act .reset, .act (.setGlobal Global.pc 0x1000)]
  obtain ⟨resting, -⟩ := session_wellFormed Variant.e132t.config
    [.act .reset, .act (.setGlobal Global.pc 0x1000), .run stoppedProgram 5]
  have starts := @Starts.slice _ _ beforeStop stoppedProgram 5 _ .refl
  obtain ⟨-, inside⟩ := calls stoppedProgram
  obtain ⟨wellFormed, ram⟩ := inside _ _ starts
  exact ⟨⟨_, _, starts, rfl, ram, wellFormed⟩, by decide +kernel, resting⟩

end Chip

end E1Machine
