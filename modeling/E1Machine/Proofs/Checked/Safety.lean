import E1Machine.Proofs.Checked.Memory
import E1Machine.Proofs.Checked.Running
import E1Machine.Proofs.TickCount

/-!
# Safety

No guest program and no answer of a host bus makes a machine with bounded numbers fail (`never_fails`). What its
operations ask of the processor holds of every one that a host can bring about: the timer has a scale and a
period that the device can have, and there is no budget left between two calls.
-/

namespace E1Machine

namespace Cpu

variable {c : Cpu}

/-! ## The period of the timer -/

/-- A tick has at most 257 clocks. -/
def Brief (c : Cpu) : Prop := c.timer.period ≤ 257

/-- The period field of a prescaler value has eight bits. -/
lemma Brief.follow {β : Type} [Bus β] {m : Machine β} (brief : m.cpu.Brief) (moves : List Move) :
    (m.follow moves).cpu.Brief := by
  refine Machine.follow_prescaled (T := fun _ _ period => period ≤ 257) (fun _ tpr => ?_) moves brief
  have field := (tpr.extractLsb' 16 8).isLt
  omega

/-- A tick of a reachable processor has at most 257 clocks. -/
lemma Reachable.brief {config : Config} (reachable : Reachable config c) : c.Brief := by
  induction reachable with
  | powerOn => exact (by decide : 2 ≤ 257)
  | modifyRegs f _ ih => exact ih
  | @call β _ m call _ ih =>
    obtain ⟨moves, reaches⟩ := m.call_reaches call
    rw [← reaches]
    exact ih.follow moves

/-- The timer of a reachable processor is regular. -/
lemma Reachable.regular {config : Config} (masked : config.clockScaleMask.toNat ≤ 7)
    (reachable : Reachable config c) : c.timer.Regular := by
  obtain ⟨mask, scale⟩ := reachable.scaled
  refine ⟨?_, Nat.le_trans scale masked, reachable.based.period, reachable.brief⟩
  rw [mask]
  exact masked

/-! ## The budget between calls -/

/-- A write of a global register leaves the budget alone. -/
lemma setGlobal_remaining (c : Cpu) (code : Nat) (value : Word) :
    (c.setGlobal code value).remaining = c.remaining := by
  obtain ⟨regs, timer, entry, lockout, reports, -, eq⟩ := c.setGlobal_changes code value
  rw [eq]

/-- A reset leaves the budget alone. -/
lemma reset_remaining (c : Cpu) : c.reset.remaining = c.remaining := by
  rw [c.reset_recovered.rest]

/-- All that a host does leaves the budget alone. -/
lemma act_remaining (c : Cpu) (action : HostAction) : (action.act c).remaining = c.remaining := by
  cases action with
  | reset => exact c.reset_remaining
  | setInput line on =>
    unfold HostAction.act setInput
    dsimp only
    split <;> rfl
  | setGlobal code value => exact c.setGlobal_remaining code value
  | setLocal code value => rfl
  | advance cycles => rfl
  | timerExpired =>
    obtain ⟨regs, timer, eq⟩ := c.timerExpired_changes
    show c.timerExpired.remaining = _
    rw [eq]

end Cpu

namespace Machine

variable {β : Type} [Bus β]

omit [Bus β] in
/-- Serving the timer leaves the budget alone. -/
lemma served_remaining (m : Machine β) : m.served.cpu.remaining = m.cpu.remaining := by
  obtain ⟨regs, timer, eq⟩ := m.cpu.serviceTimer_changes
  unfold served
  rw [eq]

/-- A slice leaves nothing of its budget. -/
lemma slice_idle {m : Machine β} (idle : m.cpu.remaining = 0) (cycles : Nat) :
    ((slice cycles).run m).2.cpu.remaining = 0 := by
  cases running : m.cpu.fault with
  | some fault =>
    rw [slice_stopped running]
    exact idle
  | none =>
    by_cases zero : cycles = 0
    · subst zero
      rw [slice_zero running]
      exact idle
    · obtain ⟨last, result, e, -, -, -, ends⟩ := slice_ends running zero
      rw [ends]
      rfl

/-- The slices of a run leave nothing of a budget, by induction on the fuel. -/
lemma runUntil_idle (stop fuel : Nat) : ∀ {m : Machine β}, m.cpu.remaining = 0 →
    ((runUntil stop fuel).run m).2.cpu.remaining = 0 := by
  induction fuel with
  | zero => exact fun idle => idle
  | succ fuel ih =>
    intro m idle
    by_cases before : m.cpu.cycles < stop
    · have sliced : (cut stop m).2.cpu.remaining = 0 := slice_idle (m.served_remaining.trans idle) _
      rw [runUntil_cut fuel before]
      cases (cut stop m).1 with
      | error fault => exact sliced
      | ok n => exact ih sliced
    · rw [runUntil_reached fuel before]
      exact idle

/-- No call leaves anything of a budget. -/
lemma call_idle {m : Machine β} (idle : m.cpu.remaining = 0) (call : Call) :
    (m.call call).cpu.remaining = 0 := by
  cases call with
  | host action => exact (m.cpu.act_remaining action).trans idle
  | slice cycles => exact slice_idle idle cycles
  | run cycles =>
    have slices := runUntil_idle (min (m.cpu.cycles + cycles) Cpu.lastCycle) cycles idle
    show ((run cycles).run m).2.cpu.remaining = 0
    rw [run_eq]
    cases ((runUntil (min (m.cpu.cycles + cycles) Cpu.lastCycle) cycles).run m).1 with
    | error fault => exact slices
    | ok _ => exact (served_remaining _).trans slices

end Machine

/-- A reachable processor has no budget left. -/
lemma Cpu.Reachable.idle {config : Config} {c : Cpu} (reachable : Reachable config c) : c.remaining = 0 := by
  induction reachable with
  | powerOn => rfl
  | modifyRegs f _ ih => exact ih
  | call call _ ih => exact Machine.call_idle ih call

namespace Checked

/-! ## Devices under their hosts -/

/-- The processor and the on-chip RAM that a host can bring about in a device from power-on: it may write the
register banks and the RAM as it likes, and make any call on any bus. -/
inductive Holds (config : Config) : Cpu → Iram → Prop where
  | powerOn : Holds config (Cpu.powerOn config) (Iram.zeros config.iramSize)
  | modifyRegs {c : Cpu} {ram : Iram} (f : Registers → Registers) :
    Holds config c ram → Holds config (c.modifyRegs f) ram
  | writeRam {c : Cpu} {ram ram' : Iram} (size : ram'.size = ram.size) :
    Holds config c ram → Holds config c ram'
  | call {β : Type} [Bus β] {m : Machine (DeviceBus β)} (call : Call) :
    m.bus.config = config → Holds config m.cpu m.bus.iram →
    Holds config (m.call call).cpu (m.call call).bus.iram

variable {config : Config} {c : Cpu} {ram : Iram}

/-- A processor in a device that a host can bring about is reachable. -/
lemma Holds.reachable (holds : Holds config c ram) : c.Reachable config := by
  induction holds with
  | powerOn => exact .powerOn
  | modifyRegs f _ ih => exact .modifyRegs f ih
  | writeRam _ _ ih => exact ih
  | call call _ _ ih => exact .call call ih

/-- A machine on a checked bus. -/
def onChecked {β : Type} (m : Machine (DeviceBus β)) : Machine (CheckedBus β) := ⟨m.cpu, ⟨some m.bus⟩⟩

/-- The RAM keeps the size that it has at power-on. -/
lemma Holds.full (holds : Holds config c ram) : ram.size = config.iramSize.bytes := by
  induction holds with
  | powerOn => exact Iram.size_zeros _
  | modifyRegs f _ ih => exact ih
  | writeRam size _ ih => exact size.trans ih
  | @call β _ m call same _ ih =>
    have fits : Fits config m.bus := by
      refine ⟨?_, same⟩
      unfold DeviceBus.Full
      rw [same]
      exact ih
    have stands : Stands config (onChecked m).bus m.bus := ⟨rfl, fits⟩
    have cpu : (onChecked m).cpu = m.cpu := rfl
    obtain ⟨-, -, full, same⟩ := Machine.call_alike (CheckedBus.answersAlike config) cpu stands call
    rw [← same]
    exact full

/-- An attempt on the checked bus of a device completes, as the action on the device does. No access to the RAM
has failed, since the device is still there. -/
def Completes {α β : Type} (attempt : Attempt (CheckedBus β) α) (action : Exec (DeviceBus β) α)
    (m : Machine (DeviceBus β)) : Prop :=
  attempt.run (onChecked m) = some ((action.run m).1, onChecked (action.run m).2)

/-- An attempt completes, if it succeeds on the checked bus and the action does the same on both. -/
lemma completes {α β : Type} {attempt : Attempt (CheckedBus β) α} {action : Exec (CheckedBus β) α}
    {action' : Exec (DeviceBus β) α} {m : Machine (DeviceBus β)} (fits : Fits config m.bus)
    (succeeds : attempt.run (onChecked m) = some (action.run (onChecked m)))
    (alike : Machine.Related Eq Eq (Stands config) Eq action action') : Completes attempt action' m := by
  have stands : Stands config (onChecked m).bus m.bus := ⟨rfl, fits⟩
  have cpu : (onChecked m).cpu = m.cpu := rfl
  obtain ⟨result, cpu, bus, -⟩ := alike cpu stands
  refine succeeds.trans (congrArg some (Prod.ext result ?_))
  rcases after : (action.run (onChecked m)).2 with ⟨cpu', bus'⟩
  rw [after] at cpu bus
  cases cpu
  cases bus
  rfl

/-- Nothing that a guest program does, that a host bus answers or that a host asks for makes the operations of a
processor fail, as long as no more than a quarter of its counters' range is used up: no result is too large for
its number, no divisor is zero, no shift is as long as the number, no index lies outside its table, and the
result is that of exact numbers. -/
theorem never_fails (v : Variant) (holds : Holds v.config c ram) (early : c.cycles < 2 ^ 62)
    (few : c.retired < 2 ^ 62) :
    reset c = some c.reset ∧
    (∀ code value, writeGlobal (.between c) c code value = some (c.setGlobal code value)) ∧
    timerExpired (.between c) c = some c.timerExpired ∧
    ∀ {β : Type} [Bus β] (host : β),
      let m : Machine (DeviceBus β) := ⟨c, v.config, ram, host⟩
      Completes step Machine.step m ∧
      (∀ budget < 2 ^ 62, Completes (slice budget) (Machine.slice budget) m) ∧
      ∀ budget < 2 ^ 62, Completes (run budget) (Machine.run budget) m := by
  have masked : v.config.clockScaleMask.toNat ≤ 7 := by cases v <;> decide
  have rests : Rests c :=
    ⟨holds.reachable.regular masked, holds.reachable.idle, by omega⟩
  have sound := rests.sound (by omega)
  refine ⟨reset_eq sound, fun code value => (writeGlobal_gives sound code value).eq,
    (timerExpired_gives sound).eq, fun {β} _ host => ?_⟩
  -- On the checked bus no access fails, so that it answers as the bus of the device, and so completes.
  intro m
  have fits : Fits v.config m.bus := ⟨holds.full, rfl⟩
  have alike := CheckedBus.answersAlike (β := β) v.config
  have slices (budget : Nat) (short : budget < 2 ^ 62) :
      Completes (slice budget) (Machine.slice budget) m :=
    completes fits (slice_succeeds (m := onChecked m) rests (Nat.le_of_lt short)
      (by show c.cycles + budget ≤ _; omega)).1
      (Machine.slice_alike alike budget)
  refine ⟨slices 1 (by decide), slices, fun budget short => ?_⟩
  exact completes fits (run_succeeds (m := onChecked m) rests early short) (Machine.run_alike alike budget)

/-- A device at the slowest clock, about to divide by zero and to enter its range error, completes a reset, a
step and a run. -/
theorem beforeDivision_completes :
    Machine.beforeDivision.cpu.cycles < 2 ^ 62 ∧ Machine.beforeDivision.cpu.retired < 2 ^ 62 ∧
    reset Machine.beforeDivision.cpu = some Machine.beforeDivision.cpu.reset ∧
    Completes step Machine.step Machine.beforeDivision ∧
    Completes (run 1000) (Machine.run 1000) Machine.beforeDivision := by
  have holds : Holds Variant.e132xs.config Machine.beforeDivision.cpu Machine.beforeDivision.bus.iram :=
    .call (.host .reset) rfl .powerOn
  have early : Machine.beforeDivision.cpu.cycles < 2 ^ 62 := by decide +kernel
  have few : Machine.beforeDivision.cpu.retired < 2 ^ 62 := by decide +kernel
  obtain ⟨resets, -, -, completes⟩ := never_fails .e132xs holds early few
  obtain ⟨steps, -, runs⟩ := completes Machine.beforeDivision.bus.host
  exact ⟨early, few, resets, steps, runs 1000 (by decide)⟩

end Checked

end E1Machine
