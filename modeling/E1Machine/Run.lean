import E1Machine.Step

/-!
# Running

What a host asks of a machine: to run for a slice of cycles, one instruction, or for a number of cycles
with the timer served in between. A slice ends with the first instruction that uses up its budget; a
run cuts its slices at the timer's deadlines, so that the callback comes at the cycle where it is due.

Every instruction spends at least one cycle, so the number of cycles asked for bounds the number of
instructions of a slice and the number of slices of a run.
-/

namespace E1Machine

/-- What a run did. -/
structure RunOutcome where
  /-- Cycles spent, with what the last instruction took too much. -/
  cycles : Nat
  /-- Instructions completed. -/
  instructions : Nat
  deriving DecidableEq, Repr

namespace Cpu

/-- The greatest budget of a slice. -/
def maxBudget : Nat := 0x7fffffffffffffff

/-- The last cycle that a run can aim for. -/
def lastCycle : Nat := 0xffffffffffffffff

/-- Starts a slice: the budget is set and a lockout that ran below zero is forgotten. -/
def openSlice (c : Cpu) (budget : Nat) : Cpu :=
  { c with remaining := (budget : Int), lockout := max c.lockout 0 }

/-- Ends a slice. -/
def closeSlice (c : Cpu) : Cpu := { c with remaining := 0 }

/-- The budget of the next slice of a run that ends at a cycle: up to the timer's deadline, or a single
instruction when that has passed. -/
def sliceBudget (c : Cpu) (stop : Nat) : Nat :=
  match c.nextDeadline with
  | some due => if c.cycles < due then min (due - c.cycles) (stop - c.cycles) else 1
  | none => stop - c.cycles

end Cpu

namespace Machine

variable {β : Type} [Bus β]

/-- Runs instructions until the budget of the slice is used up, `fuel` at most. -/
def executeWhile : Nat → Exec β (Except Fault Unit)
  | 0 => return .ok ()
  | fuel + 1 => do
    match ← executeOne with
    | .error fault => return .error fault
    | .ok () => if 0 < (← getCpu).remaining then executeWhile fuel else return .ok ()

/-- Runs until a number of cycles is spent, and at least one instruction unless the number is zero.
Interrupts are checked once at the start. The result is the number of cycles spent. -/
def slice (cycles : Nat) : Exec β (Except Fault Nat) := do
  let c ← getCpu
  match c.fault with
  | some fault => return .error fault
  | none =>
    if cycles = 0 then return .ok 0
    else
      let budget := min cycles Cpu.maxBudget
      modifyCpu (·.openSlice budget)
      checkInterrupts
      let result ← executeWhile budget
      modifyCpu (·.closeSlice)
      let spent := (← getCpu).cycles - c.cycles
      return result.map fun () => spent

/-- Runs one instruction, after the interrupt that may precede it. -/
def step : Exec β (Except Fault Nat) := slice 1

/-- Runs slices until a cycle is reached, `fuel` at most. -/
def runUntil (stop : Nat) : Nat → Exec β (Except Fault Unit)
  | 0 => return .ok ()
  | fuel + 1 => do
    if (← getCpu).cycles < stop then
      modifyCpu (·.serviceTimer)
      match ← slice ((← getCpu).sliceBudget stop) with
      | .error fault => return .error fault
      | .ok _ => runUntil stop fuel
    else return .ok ()

/-- Runs for a number of cycles and makes the timer's callbacks when they are due. -/
def run (cycles : Nat) : Exec β (Except Fault RunOutcome) := do
  let start ← getCpu
  match ← runUntil (min (start.cycles + cycles) Cpu.lastCycle) cycles with
  | .error fault => return .error fault
  | .ok () =>
    modifyCpu (·.serviceTimer)
    let c ← getCpu
    return .ok ⟨c.cycles - start.cycles, c.retired - start.retired⟩

end Machine

end E1Machine
