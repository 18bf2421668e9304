import E1Machine.Bus.Device
import E1Machine.Cpu.Host

/-!
# Machines

A machine is a processor and the bus it works on. Instructions that use the bus are actions on the
machine; all others are functions on the processor, and so cannot touch the bus.
-/

namespace E1Machine

/-- A processor on a bus. -/
structure Machine (β : Type) where
  /-- The processor. -/
  cpu : Cpu
  /-- The state of the bus. -/
  bus : β

/-- Actions on a machine. -/
abbrev Exec (β : Type) := StateM (Machine β)

namespace Machine

variable {α β γ : Type}

/-- The machine of a device, before the first reset. -/
def powerOn (config : Config) (host : β) : Machine (DeviceBus β) :=
  ⟨Cpu.powerOn config, ⟨config, Iram.zeros config.iramSize, host⟩⟩

/-- The processor. -/
def getCpu : Exec β Cpu := fun m => (m.cpu, m)

/-- Runs a function of the processor. -/
def modifyCpu (f : Cpu → Cpu) : Exec β Unit := fun ⟨cpu, bus⟩ => ((), ⟨f cpu, bus⟩)

/-- Runs a function of the processor that has a result. -/
def onCpu (f : Cpu → α × Cpu) : Exec β α := fun ⟨cpu, bus⟩ =>
  let (a, cpu) := f cpu
  (a, ⟨cpu, bus⟩)

/-- Makes a request to the bus. -/
def onBus (request : StateM β α) : Exec β α := fun ⟨cpu, bus⟩ =>
  let (a, bus) := request bus
  (a, ⟨cpu, bus⟩)

/-- Actions run one after another. -/
theorem run_bind (x : Exec β α) (f : α → Exec β γ) (m : Machine β) :
    (x >>= f).run m = (f (x.run m).1).run (x.run m).2 := rfl

/-- Looking at the processor changes nothing. -/
theorem run_getCpu (m : Machine β) : getCpu.run m = (m.cpu, m) := rfl

/-- A change of the processor leaves the bus alone. -/
theorem run_modifyCpu (f : Cpu → Cpu) (m : Machine β) :
    (modifyCpu f).run m = ((), ⟨f m.cpu, m.bus⟩) := rfl

/-- An action on the processor returns its answer and leaves the bus alone. -/
theorem run_onCpu (f : Cpu → α × Cpu) (m : Machine β) :
    (onCpu f).run m = ((f m.cpu).1, ⟨(f m.cpu).2, m.bus⟩) := rfl

/-- A request on the bus returns its answer and leaves the processor alone. -/
theorem run_onBus (request : StateM β α) (m : Machine β) :
    (onBus request).run m = ((request.run m.bus).1, ⟨m.cpu, (request.run m.bus).2⟩) := rfl

end Machine

end E1Machine
