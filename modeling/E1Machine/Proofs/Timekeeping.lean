import E1Machine.Proofs.Lockstep

/-!
# Relations about timekeeping

A processor keeps time with its tick timer, its cycle counters, its lockout and its count of
instructions. Everything else is its core, and most elementary steps act on the core alone. A relation
that looks only at timekeeping, and that the few steps of timekeeping keep, is therefore kept by whole
instruction cycles (`Cpu.Timekeeping.cycleCongruence`).
-/

namespace E1Machine

namespace Cpu

/-- What a processor has apart from its timekeeping. -/
structure Core where
  regs : Registers
  entry : TrapEntry
  delay : DelaySlot
  lastPc : Word
  length : Nat
  fault : Option Fault
  reports : Array Diagnostic
  entries : Array Entry

/-- The core of a processor. -/
def core (c : Cpu) : Core :=
  ⟨c.regs, c.entry, c.delay, c.lastPc, c.length, c.fault, c.reports, c.entries⟩

/-- A processor with another core, its timekeeping unchanged. -/
def withCore (c : Cpu) (core : Core) : Cpu :=
  { c with
    regs := core.regs, entry := core.entry, delay := core.delay, lastPc := core.lastPc,
    length := core.length, fault := core.fault, reports := core.reports, entries := core.entries }

/-- A step that takes what it needs from the core, and changes nothing else. -/
def ActsOnCore (f : Cpu → Cpu) : Prop := ∀ c d : Cpu, f (d.withCore c.core) = d.withCore (f c).core

/-- Steps that act on the core alone do so one after the other. -/
lemma ActsOnCore.comp {f g : Cpu → Cpu} (hg : ActsOnCore g) (hf : ActsOnCore f) :
    ActsOnCore fun c => g (f c) := by
  intro c d
  show g (f (d.withCore c.core)) = _
  rw [hf c d]
  exact hg (f c) d

/-- A redirection acts on the core alone. -/
lemma redirect_actsOnCore : ActsOnCore redirect := by
  intro c d
  rw [redirect_eq, redirect_eq]
  rfl

/-- Filling a frame acts on the core alone, by induction on its words. -/
lemma fillFrame_actsOnCore (values : List Word) : ∀ code : Nat,
    ActsOnCore fun c => c.fillFrame code values := by
  induction values with
  | nil => exact fun _ _ _ => rfl
  | cons value values ih =>
    intro code
    exact (ih (code + 1)).comp (f := (·.modifyRegs (·.setInFrame code value))) fun _ _ => rfl

/-- Stacking the words of an entry acts on the core alone. -/
lemma stackEntry_actsOnCore (cause : EntryCause) (length : BitVec 4) (stacked : List Word) :
    ActsOnCore fun c => c.stackEntry cause length stacked := by
  have noted : ActsOnCore fun c =>
      { c with entries := c.entries.push ⟨cause, c.status.fp, stacked, c.delay.target⟩ } :=
    fun _ _ => rfl
  have opened : ActsOnCore fun c => c.modifyStatus (·.openFrame length) := fun _ _ => rfl
  exact noted.comp ((fillFrame_actsOnCore stacked 0).comp opened)

/-- A relation about timekeeping: related processors have the same core and stay related when both get
another one, and the steps of timekeeping keep the relation. -/
structure Timekeeping (R : Cpu → Cpu → Prop) : Prop where
  core_eq {c d : Cpu} : R c d → c.core = d.core
  withCore {c d : Cpu} (core : Core) : R c d → R (c.withCore core) (d.withCore core)
  scale_eq {c d : Cpu} : R c d → c.timer.scale = d.timer.scale
  due_eq {c d : Cpu} : R c d → c.interruptDue = d.interruptDue
  spend {c d : Cpu} (n : Nat) : R c d → R (c.spend n) (d.spend n)
  block {c d : Cpu} (n : Nat) : R c d → R (c.block n) (d.block n)
  retire {c d : Cpu} : R c d → R c.retire d.retire
  expires_iff {c d : Cpu} : R c d → (c.retire.lockout = 0 ↔ d.retire.lockout = 0)
  reschedule {c d : Cpu} : R c d → R c.reschedule d.reschedule
  setPrescale {c d : Cpu} (tpr : Word) : R c d →
    R { c with timer := c.timer.setPrescale c.cycles tpr }
      { d with timer := d.timer.setPrescale d.cycles tpr }
  rebase {c d : Cpu} (value : Word) : R c d →
    R { c with timer := c.timer.rebase c.cycles value }
      { d with timer := d.timer.rebase d.cycles value }
  serve {c d : Cpu} : R c d →
    R { c with timer := { c.timer with pending := false } }
      { d with timer := { d.timer with pending := false } }

namespace Timekeeping

variable {R : Cpu → Cpu → Prop} (h : Timekeeping R) {c d : Cpu}
include h

/-- A step on the core alone keeps a relation about timekeeping. -/
lemma keep (r : R c d) (f : Cpu → Cpu) (acts : ActsOnCore f) : R (f c) (f d) := by
  have left : f c = c.withCore (f c).core := acts c c
  have right : f d = d.withCore (f c).core := by
    rw [← acts c d, h.core_eq r]
    rfl
  rw [left, right]
  exact h.withCore _ r

/-- Related processors have the same registers. -/
lemma regs_eq (r : R c d) : c.regs = d.regs := congrArg (·.regs) (h.core_eq r)

/-- Related processors have the same status register. -/
lemma status_eq (r : R c d) : c.status = d.status := congrArg Registers.status (h.regs_eq r)

/-- Related processors have the same entry table. -/
lemma entry_eq (r : R c d) : c.entry = d.entry := congrArg (·.entry) (h.core_eq r)

/-- Related processors have the same instruction length. -/
lemma length_eq (r : R c d) : c.length = d.length := congrArg (·.length) (h.core_eq r)

/-- Related processors have the same return address. -/
lemma returnPc_eq (r : R c d) : c.returnPc = d.returnPc := by
  unfold returnPc
  rw [h.regs_eq r, h.status_eq r]

/-- Related processors run at the same scale, so they are charged the same. -/
lemma charge (r : R c d) (kind : CostClass) : R (c.charge kind) (d.charge kind) := by
  have cost : c.cost kind = d.cost kind := by
    rw [cost_eq, cost_eq, h.scale_eq r]
  unfold Cpu.charge
  rw [cost]
  exact h.spend _ r

/-- A register stored on both sides keeps the relation. -/
lemma store (r : R c d) (code : Nat) (value : Word) : R (c.store code value) (d.store code value) :=
  h.keep r (·.store code value) fun _ _ => rfl

/-! ## Writes of special registers -/

/-- A write of the prescaler keeps the relation. -/
lemma writePrescaler (r : R c d) (value : Word) :
    R (c.writePrescaler value) (d.writePrescaler value) := by
  unfold Cpu.writePrescaler applyPrescale
  refine h.reschedule ?_
  split
  · exact h.store r _ _
  · exact h.store (h.setPrescale value r) _ _

/-- A write of the compare register keeps the relation. -/
lemma writeCompare (r : R c d) (value : Word) : R (c.writeCompare value) (d.writeCompare value) := by
  unfold Cpu.writeCompare
  rw [h.regs_eq r]
  split
  · exact r
  · exact h.block 1 (h.reschedule (h.store r _ _))

/-- A write of the control register keeps the relation. -/
lemma writeControl (r : R c d) (value : Word) : R (c.writeControl value) (d.writeControl value) := by
  unfold Cpu.writeControl
  rw [h.regs_eq r]
  refine h.block 1 ?_
  split
  · exact h.reschedule (h.store r _ _)
  · exact h.store r _ _

/-- A write of the memory control register keeps the relation. -/
lemma writeMemoryControl (r : R c d) (value : Word) :
    R (c.writeMemoryControl value) (d.writeMemoryControl value) := by
  unfold Cpu.writeMemoryControl
  dsimp only
  have stored := h.store r Global.mcr value
  cases TrapEntry.ofMcr value with
  | none => exact h.keep stored (·.report _) fun _ _ => rfl
  | some entry => exact h.keep stored (fun c => { c with entry := entry }) fun _ _ => rfl

/-- A write of any global register keeps the relation. -/
lemma setGlobal (r : R c d) (code : Nat) (value : Word) :
    R (c.setGlobal code value) (d.setGlobal code value) := by
  unfold Cpu.setGlobal
  split
  · exact h.keep r (·.setPc value) fun _ _ => rfl
  · exact h.block 1 (h.keep r (·.modifyStatus (·.write value)) fun _ _ => rfl)
  · exact h.store r _ _
  · exact h.store r _ _
  · exact h.writePrescaler r value
  · exact h.writeCompare r value
  · exact h.reschedule (h.rebase value (h.store r Global.tr value))
  · exact r
  · exact h.writeControl r value
  · exact h.writeMemoryControl r value
  · exact h.store r _ _

/-! ## Entries -/

/-- Noting the length of an instruction keeps the relation. -/
lemma noteLength (r : R c d) (halfwords : Nat) :
    R (c.noteLength halfwords) (d.noteLength halfwords) :=
  h.keep r (·.noteLength halfwords) fun _ _ => rfl

/-- The entry of a handler keeps the relation. -/
lemma enterFrame (r : R c d) (cause : EntryCause) (vector : Word) (length : BitVec 4) :
    R (c.enterFrame cause vector length) (d.enterFrame cause vector length) := by
  have noted := h.noteLength r d.length
  unfold Cpu.enterFrame
  dsimp only
  rw [h.length_eq r, h.status_eq noted, h.returnPc_eq noted]
  have stacked := h.keep noted _ (stackEntry_actsOnCore cause length
    [(d.noteLength d.length).returnPc, (d.noteLength d.length).status.bits])
  have handling := h.keep stacked (·.modifyStatus fun s =>
    { s with m := false, t := false, l := true, s := true, i := s.i || cause.isInterrupt })
    fun _ _ => rfl
  exact h.charge (h.keep handling (·.jump vector) fun _ _ => rfl) .entrySequence

/-- An exception keeps the relation. -/
lemma raise (r : R c d) (exception : Exception) : R (c.raise exception) (d.raise exception) := by
  unfold Cpu.raise
  rw [h.entry_eq r]
  exact h.enterFrame r _ _ _

/-- A trap that is taken keeps the relation. -/
lemma enterTrap (r : R c d) (number : Nat) : R (c.enterTrap number) (d.enterTrap number) := by
  unfold Cpu.enterTrap
  rw [h.entry_eq r]
  exact h.enterFrame r _ _ _

/-- The entry of an interrupt keeps the relation. -/
lemma enterInterrupt (r : R c d) (source : InterruptSource) :
    R (c.enterInterrupt source) (d.enterInterrupt source) := by
  unfold Cpu.enterInterrupt
  rw [h.entry_eq r]
  exact h.enterFrame r _ _ _

/-- The entry of an emulation keeps the relation. -/
lemma enterEmulation (r : R c d) (byte : Byte) (dst src : Nat) :
    R (c.enterEmulation byte dst src) (d.enterEmulation byte dst src) := by
  have noted := h.noteLength r 1
  have operand : (c.noteLength 1).stackAddress dst = (d.noteLength 1).stackAddress dst := by
    unfold stackAddress
    rw [h.regs_eq noted]
  unfold Cpu.enterEmulation
  dsimp only
  rw [h.status_eq noted, h.returnPc_eq noted, operand, h.regs_eq noted, h.entry_eq noted]
  have stacked := h.keep noted _ (stackEntry_actsOnCore (.emulation byte) 6
    [(d.noteLength 1).stackAddress dst, (d.noteLength 1).regs.inFrame src,
      (d.noteLength 1).regs.inFrame (src + 1), (d.noteLength 1).returnPc,
      (d.noteLength 1).status.bits])
  have handling := h.keep stacked (·.modifyStatus fun s => { s with m := false, t := false, l := true })
    fun _ _ => rfl
  exact h.charge (h.keep handling (·.jump _) fun _ _ => rfl) .softwareEntry

/-- Resuming what was interrupted keeps the relation. -/
lemma resume (r : R c d) (address saved : Word) :
    R (c.resume address saved) (d.resume address saved) := by
  have returned := h.keep r (fun c => (c.jump address).modifyStatus fun _ =>
    { Status.ofBits saved with s := address.getLsbD 0, ilc := 0 }) fun _ _ => rfl
  exact h.keep (h.block 1 returned) (fun c => { c with length := 0 }) fun _ _ => rfl

/-- Taking an interrupt keeps the relation. -/
lemma takeInterrupt (r : R c d) (source : InterruptSource) :
    R (c.takeInterrupt source) (d.takeInterrupt source) := by
  cases source with
  | timer => exact h.enterInterrupt (h.serve r) .timer
  | line line => exact h.enterInterrupt r (.line line)

/-- A relation about timekeeping is kept by every elementary step. -/
lemma congruence : Congruence R where
  regs_eq := h.regs_eq
  length_eq := h.length_eq
  scale_eq := h.scale_eq
  begin r := h.keep r Cpu.begin fun _ _ => rfl
  continueAt cursor r := h.keep r (·.continueAt cursor) fun _ _ => rfl
  redirect r := h.keep r Cpu.redirect redirect_actsOnCore
  modifyStatus {_ _ f} _ r := h.keep r (·.modifyStatus f) fun _ _ => rfl
  setLocalAt slot value r := h.keep r (·.modifyRegs (·.setLocalAt slot value)) fun _ _ => rfl
  setSp value r := h.keep r (·.modifyRegs (·.setSp value)) fun _ _ => rfl
  setGlobal code value r := h.setGlobal r code value
  jump target r := h.keep r (·.jump target) fun _ _ => rfl
  spend n r := h.spend n r
  block n r := h.block n r
  report d r := h.keep r (·.report d) fun _ _ => rfl
  enterTrap number r := h.enterTrap r number
  raise exception r := h.raise r exception
  enterEmulation byte dst src r := h.enterEmulation r byte dst src
  resume address saved r := h.resume r address saved

/-- A relation about timekeeping is kept by whole instruction cycles. -/
theorem cycleCongruence : CycleCongruence R where
  toCongruence := h.congruence
  delay_eq r := congrArg (·.delay) (h.core_eq r)
  due_eq := h.due_eq
  stop fault r := h.keep r (·.stop fault) fun _ _ => rfl
  delayTo target r := h.keep r (·.delayTo target) fun _ _ => rfl
  setHigh high r := h.keep r (·.modifyStatus fun s => { s with h := high }) fun _ _ => rfl
  retire := h.retire
  expires_iff := h.expires_iff
  takeInterrupt source r := h.takeInterrupt r source

end Timekeeping

end Cpu

end E1Machine
