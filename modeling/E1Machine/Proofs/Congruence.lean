import E1Machine.Step
import Mathlib.Tactic.Common

/-!
# Congruences of the processor

A relation between two processors that every elementary step keeps is kept by every effect. The
elementary steps are listed once, in `Cpu.Congruence`; the effects of instructions are built from them,
and each has its lemma here. Two readings of it recur: two processors that differ only in what no
instruction looks at stay so, and, through `Cpu.Invariant`, a property of one processor is never lost.

An effect may only use what the relation makes equal. The two exceptions are excluded until a relation
says otherwise: reading the tick count, which depends on the time, and leaving the target of a delayed
branch.
-/

namespace E1Machine

/-- A change of the status register that keeps the mode: only the flags, the length and the frame may
differ afterwards. -/
def Status.KeepsMode (f : Status → Status) : Prop :=
  ∀ s, f s = { s with
    c := (f s).c, z := (f s).z, n := (f s).n, v := (f s).v, m := (f s).m, ilc := (f s).ilc,
    fl := (f s).fl, fp := (f s).fp }

/-- Whether reading the operand reads the tick count. -/
def Operand.isTicks (o : Operand) : Bool := o.bank == .globals && o.code % 32 == Global.tr

namespace Cpu

/-- A relation that every elementary step keeps. -/
structure Congruence (R : Cpu → Cpu → Prop) : Prop where
  regs_eq {c d : Cpu} : R c d → c.regs = d.regs
  length_eq {c d : Cpu} : R c d → c.length = d.length
  scale_eq {c d : Cpu} : R c d → c.timer.scale = d.timer.scale
  begin {c d : Cpu} : R c d → R c.begin d.begin
  continueAt {c d : Cpu} (cursor : Cursor) : R c d → R (c.continueAt cursor) (d.continueAt cursor)
  redirect {c d : Cpu} : R c d → R c.redirect d.redirect
  modifyStatus {c d : Cpu} {f : Status → Status} (keeps : Status.KeepsMode f) :
    R c d → R (c.modifyStatus f) (d.modifyStatus f)
  setLocalAt {c d : Cpu} (slot : Fin 64) (value : Word) : R c d →
    R (c.modifyRegs (·.setLocalAt slot value)) (d.modifyRegs (·.setLocalAt slot value))
  setSp {c d : Cpu} (value : Word) : R c d →
    R (c.modifyRegs (·.setSp value)) (d.modifyRegs (·.setSp value))
  setGlobal {c d : Cpu} (code : Nat) (value : Word) : R c d →
    R (c.setGlobal code value) (d.setGlobal code value)
  jump {c d : Cpu} (target : Word) : R c d → R (c.jump target) (d.jump target)
  spend {c d : Cpu} (n : Nat) : R c d → R (c.spend n) (d.spend n)
  block {c d : Cpu} (n : Nat) : R c d → R (c.block n) (d.block n)
  report {c d : Cpu} (report : Diagnostic) : R c d → R (c.report report) (d.report report)
  enterTrap {c d : Cpu} (number : Nat) : R c d → R (c.enterTrap number) (d.enterTrap number)
  raise {c d : Cpu} (exception : Exception) : R c d → R (c.raise exception) (d.raise exception)
  enterEmulation {c d : Cpu} (byte : Byte) (dst src : Nat) : R c d →
    R (c.enterEmulation byte dst src) (d.enterEmulation byte dst src)
  resume {c d : Cpu} (address saved : Word) : R c d →
    R (c.resume address saved) (d.resume address saved)

/-- A relation that is kept when both sides leave the same target of a delayed branch. -/
def KeepsDelay (R : Cpu → Cpu → Prop) : Prop :=
  ∀ ⦃c d : Cpu⦄ (target : Word), R c d → R (c.delayTo target) (d.delayTo target)

/-- A relation under which both sides read the same tick count, and that reading keeps. -/
def KeepsTicks (R : Cpu → Cpu → Prop) : Prop :=
  ∀ ⦃c d : Cpu⦄, R c d → c.readTicks.1 = d.readTicks.1 ∧ R c.readTicks.2 d.readTicks.2

namespace Congruence

variable {R : Cpu → Cpu → Prop} (h : Congruence R) {c d : Cpu}
include h

/-! ## What is read -/

/-- Related processors have the same status register. -/
lemma status_eq (r : R c d) : c.status = d.status := congrArg Registers.status (h.regs_eq r)

/-- Related processors read the same from a register. -/
lemma read (r : R c d) (o : Operand) : c.read o = d.read o := by
  unfold Cpu.read
  rw [h.regs_eq r]

/-- Related processors read the same in arithmetic. -/
lemma readArith (r : R c d) (o : Operand) : c.readArith o = d.readArith o := by
  unfold Cpu.readArith
  rw [h.status_eq r, h.read r]

/-- Related processors read the same where the status register stands for zero. -/
lemma readBeyondCarry (r : R c d) (o : Operand) : c.readBeyondCarry o = d.readBeyondCarry o := by
  unfold Cpu.readBeyondCarry
  rw [h.read r]

/-- Related processors read the same pair of registers. -/
lemma readPair (r : R c d) (o : Operand) : c.readPair o = d.readPair o := by
  unfold Cpu.readPair
  rw [h.read r, h.read r]

/-- Related processors have the same source operand. -/
lemma source (r : R c d) (src : Source) : c.source src = d.source src := by
  cases src with
  | register o => exact h.read r o
  | literal value => rfl

/-- Related processors have the same source operand in arithmetic. -/
lemma sourceArith (r : R c d) (src : Source) : c.sourceArith src = d.sourceArith src := by
  cases src with
  | register o => exact h.readArith r o
  | literal value => rfl

/-- Related processors would stack the same return address. -/
lemma returnPc (r : R c d) : c.returnPc = d.returnPc := by
  unfold Cpu.returnPc
  rw [h.regs_eq r, h.status_eq r]

/-- Related processors transfer data at the same address. -/
lemma transferAddress (r : R c d) (addressing : Addressing) :
    c.transferAddress addressing = d.transferAddress addressing := by
  cases addressing with
  | offset base offset =>
    show c.readBeyondCarry base + offset = d.readBeyondCarry base + offset
    rw [h.readBeyondCarry r]
  | advancing address step => exact h.read r address

/-- Related processors store the same data. -/
lemma stored (r : R c d) (data : Operand) : c.stored data = d.stored data := by
  unfold Cpu.stored
  rw [h.read r, h.read r]

/-! ## The parts of effects -/

/-- A write of a local register keeps the relation. -/
lemma setInFrame (r : R c d) (code : Nat) (value : Word) :
    R (c.modifyRegs (·.setInFrame code value)) (d.modifyRegs (·.setInFrame code value)) := by
  show R (c.modifyRegs (·.setLocalAt (c.regs.slot code) value))
    (d.modifyRegs (·.setLocalAt (d.regs.slot code) value))
  rw [h.regs_eq r]
  exact h.setLocalAt _ value r

/-- A write of any register keeps the relation. -/
lemma write (r : R c d) (o : Operand) (value : Word) : R (c.write o value) (d.write o value) := by
  unfold Cpu.write
  cases o.bank with
  | globals => exact h.setGlobal o.code value r
  | locals => exact h.setInFrame r o.code value

/-- A write of a pair of registers keeps the relation. -/
lemma writePair (r : R c d) (o : Operand) (value : Double) :
    R (c.writePair o value) (d.writePair o value) :=
  h.write (h.write r o _) o.next _

/-- Noting a length keeps the relation. -/
lemma noteLength (r : R c d) (halfwords : Nat) :
    R (c.noteLength halfwords) (d.noteLength halfwords) :=
  h.modifyStatus (fun _ => rfl) r

/-- Filling a frame keeps the relation, by induction on the words. -/
lemma fillFrame (values : List Word) : ∀ {c d : Cpu} (code : Nat), R c d →
    R (c.fillFrame code values) (d.fillFrame code values) := by
  induction values with
  | nil => exact fun _ r => r
  | cons value values ih => exact fun code r => ih (code + 1) (h.setInFrame r code value)

/-- An exception that may be raised keeps the relation. -/
lemma raiseIf (r : R c d) (condition : Bool) (exception : Exception) :
    R (c.raiseIf condition exception) (d.raiseIf condition exception) := by
  cases condition with
  | false => exact r
  | true => exact h.raise exception r

/-- A result that is written with its flags keeps the relation. -/
lemma assign (r : R c d) (dst : Operand) (value : Word) {flags : Status → Status}
    (keeps : Status.KeepsMode flags) :
    R (c.assign dst value flags) (d.assign dst value flags) := by
  have written := h.modifyStatus keeps (h.write r dst value)
  unfold Cpu.assign
  cases dst.isPc with
  | false => exact written
  | true => exact h.modifyStatus (fun _ => rfl) written

/-- Advancing an address register keeps the relation. -/
lemma advanceAddress (r : R c d) (addr : Word) (addressing : Addressing) :
    R (c.advanceAddress addr addressing) (d.advanceAddress addr addressing) := by
  cases addressing with
  | offset base offset => exact r
  | advancing address step => exact h.write r address (addr + step)

/-- Moving the frame keeps the relation. -/
lemma reframe (r : R c d) (back length : BitVec 4) :
    R (c.reframe back length) (d.reframe back length) :=
  h.modifyStatus (fun _ => rfl) r

/-- A product that is written to a pair keeps the relation. -/
lemma assignProduct (r : R c d) (dst : Operand) (product : Double) :
    R (c.assignProduct dst product) (d.assignProduct dst product) :=
  h.modifyStatus (fun _ => rfl) (h.writePair r dst product)

/-- What a move reads is the same, and reading keeps the relation, unless it is the tick count. -/
lemma readMoved (r : R c d) (src : Operand) (ticks : src.isTicks → KeepsTicks R) :
    (c.readMoved src).1 = (d.readMoved src).1 ∧ R (c.readMoved src).2 (d.readMoved src).2 := by
  obtain ⟨bank, code⟩ := src
  cases bank with
  | locals => exact ⟨h.read r ⟨.locals, code⟩, r⟩
  | globals =>
    by_cases reads : code % 32 = 23
    · have readable : Global.writeOnly code = false := by
        show (code == 20 || code == 21 || code == 26 || code == 27) = false
        simp only [Bool.or_eq_false_iff, beq_eq_false_iff_ne]
        omega
      have moved (e : Cpu) : e.readMoved ⟨.globals, code⟩ = e.readTicks := by
        simp [Cpu.readMoved, Cpu.readGlobal, readable, reads]
      rw [moved, moved]
      exact ticks (by simp [Operand.isTicks, reads]) r
    · have moved (e : Cpu) : e.readMoved ⟨.globals, code⟩ =
          (if Global.writeOnly code then 0 else e.regs.global code, e) := by
        by_cases hidden : Global.writeOnly code
        · simp [Cpu.readMoved, hidden]
        · simp [Cpu.readMoved, Cpu.readGlobal, hidden, reads]
      rw [moved, moved, h.regs_eq r]
      exact ⟨rfl, r⟩

end Congruence

/-- Two congruences, where spending at least one cycle leads from the first to the second. -/
structure Charging (R Q : Cpu → Cpu → Prop) : Prop where
  before : Congruence R
  after : Congruence Q
  spend {c d : Cpu} {n : Nat} (positive : 0 < n) : R c d → Q (c.spend n) (d.spend n)
  enterEmulation {c d : Cpu} (byte : Byte) (dst src : Nat) : R c d →
    Q (c.enterEmulation byte dst src) (d.enterEmulation byte dst src)

/-- A congruence is not lost by spending. -/
lemma Congruence.charging {R : Cpu → Cpu → Prop} (h : Congruence R) : Charging R R where
  before := h
  after := h
  spend _ r := h.spend _ r
  enterEmulation byte dst src r := h.enterEmulation byte dst src r

namespace Charging

variable {R Q : Cpu → Cpu → Prop} (h : Charging R Q) {c d : Cpu}
include h

/-- Charging leads from the first relation to the second: related processors run at the same scale, and
no cost is zero. -/
lemma charge (r : R c d) (kind : CostClass) : Q (c.charge kind) (d.charge kind) := by
  have cost : c.cost kind = d.cost kind := by
    rw [cost_eq, cost_eq, h.before.scale_eq r]
  unfold Cpu.charge
  rw [cost]
  exact h.spend (d.cost_pos kind) r

/-- A sum or difference is charged before its range error is raised. -/
lemma finishAdder (r : R c d) (dst : Operand) (result : AdderResult) (signed : Bool) :
    Q (c.finishAdder dst result signed) (d.finishAdder dst result signed) := by
  unfold Cpu.finishAdder
  split
  · exact h.after.raiseIf (h.charge (h.before.assign r dst _ fun _ => rfl) .alu) _ .range
  · exact h.charge (h.before.assign r dst _ fun _ => rfl) .alu

/-! ## Arithmetic, logic and moves -/

/-- Additions are charged on both sides alike. -/
lemma add (r : R c d) (dst : Operand) (src : Source) (signed : Bool) :
    Q (c.add dst src signed) (d.add dst src signed) := by
  unfold Cpu.add
  rw [h.before.read r, h.before.sourceArith r]
  exact h.finishAdder r dst _ signed

/-- Subtractions are charged on both sides alike. -/
lemma sub (r : R c d) (dst src : Operand) (signed : Bool) :
    Q (c.sub dst src signed) (d.sub dst src signed) := by
  unfold Cpu.sub
  rw [h.before.read r, h.before.readArith r]
  exact h.finishAdder r dst _ signed

/-- Negations are charged on both sides alike. -/
lemma neg (r : R c d) (dst src : Operand) (signed : Bool) :
    Q (c.neg dst src signed) (d.neg dst src signed) := by
  unfold Cpu.neg
  rw [h.before.readArith r]
  exact h.finishAdder r dst _ signed

/-- Sums with a constant are charged on both sides alike. -/
lemma sum (r : R c d) (dst src : Operand) (addend : Word) (signed : Bool) :
    Q (c.sum dst src addend signed) (d.sum dst src addend signed) := by
  unfold Cpu.sum
  rw [h.before.readArith r]
  exact h.finishAdder r dst _ signed

/-- Roundings are charged on both sides alike. -/
lemma round (r : R c d) (dst : Operand) (signed : Bool) :
    Q (c.round dst signed) (d.round dst signed) := by
  unfold Cpu.round
  rw [h.before.read r, h.before.status_eq r]
  exact h.finishAdder r dst _ signed

/-- Additions with carry are charged on both sides alike. -/
lemma addCarry (r : R c d) (dst src : Operand) : Q (c.addCarry dst src) (d.addCarry dst src) := by
  unfold Cpu.addCarry
  rw [h.before.read r, h.before.readBeyondCarry r, h.before.status_eq r]
  exact h.charge (h.before.assign r dst _ fun _ => rfl) .alu

/-- Subtractions with carry are charged on both sides alike. -/
lemma subCarry (r : R c d) (dst src : Operand) : Q (c.subCarry dst src) (d.subCarry dst src) := by
  unfold Cpu.subCarry
  rw [h.before.read r, h.before.readBeyondCarry r, h.before.status_eq r]
  exact h.charge (h.before.assign r dst _ fun _ => rfl) .alu

/-- Comparisons are charged on both sides alike. -/
lemma compare (r : R c d) (dst : Operand) (src : Source) :
    Q (c.compare dst src) (d.compare dst src) := by
  unfold Cpu.compare
  rw [h.before.read r, h.before.sourceArith r]
  exact h.charge (h.before.modifyStatus (fun _ => rfl) r) .alu

/-- Tests that set the zero flag are charged on both sides alike. -/
lemma setZero (r : R c d) (z : Bool) : Q (c.setZero z) (d.setZero z) :=
  h.charge (h.before.modifyStatus (fun _ => rfl) r) .alu

/-- Tests of bits are charged on both sides alike. -/
lemma testBits (r : R c d) (dst : Operand) (src : Source) :
    Q (c.testBits dst src) (d.testBits dst src) := by
  unfold Cpu.testBits
  rw [h.before.read r, h.before.source r]
  exact h.setZero r _

/-- Tests for a zero byte are charged on both sides alike. -/
lemma testZeroByte (r : R c d) (dst : Operand) : Q (c.testZeroByte dst) (d.testZeroByte dst) := by
  unfold Cpu.testZeroByte
  rw [h.before.read r]
  exact h.setZero r _

/-- Checks of a bound raise their exception on both sides or on neither. -/
lemma check (r : R c d) (dst src : Operand) : Q (c.check dst src) (d.check dst src) := by
  unfold Cpu.check
  rw [h.before.read r, h.before.read r]
  exact h.charge (h.before.raiseIf r _ .range) .alu

/-- Logical operations are charged on both sides alike. -/
lemma logical (r : R c d) (op : LogicalOp) (dst : Operand) (src : Source) :
    Q (c.logical op dst src) (d.logical op dst src) := by
  unfold Cpu.logical
  rw [h.before.read r, h.before.source r]
  exact h.charge (h.before.assign r dst _ fun _ => rfl) .alu

/-- Complements are charged on both sides alike. -/
lemma complement (r : R c d) (dst src : Operand) :
    Q (c.complement dst src) (d.complement dst src) := by
  unfold Cpu.complement
  rw [h.before.read r]
  exact h.charge (h.before.assign r dst _ fun _ => rfl) .alu

/-- Masks are charged on both sides alike. -/
lemma mask (r : R c d) (dst src : Operand) (mask : Word) :
    Q (c.mask dst src mask) (d.mask dst src mask) := by
  unfold Cpu.mask
  rw [h.before.read r]
  exact h.charge (h.before.modifyStatus (fun _ => rfl) (h.before.write r dst _)) .alu

/-- Counts of leading zeros are charged on both sides alike. -/
lemma leadingZeros (r : R c d) (dst src : Operand) :
    Q (c.leadingZeros dst src) (d.leadingZeros dst src) := by
  unfold Cpu.leadingZeros
  rw [h.before.read r]
  exact h.charge (h.before.write r dst _) .alu

/-- Moves are charged on both sides alike. One that reads the tick count asks that both sides read the same. -/
lemma move (r : R c d) (dst src : Operand) (ticks : src.isTicks → KeepsTicks R) :
    Q (c.move dst src) (d.move dst src) := by
  obtain ⟨value, related⟩ := h.before.readMoved r src ticks
  have moved (e : Cpu) : e.move dst src =
      ((e.readMoved src).2.assign dst (e.readMoved src).1
        (·.setResult (e.readMoved src).1)).charge .alu := rfl
  rw [moved, moved, value]
  exact h.charge (h.before.assign related dst _ fun _ => rfl) .alu

/-- Moves of a literal are charged on both sides alike. -/
lemma moveImmediate (r : R c d) (dst : Operand) (value : Word) :
    Q (c.moveImmediate dst value) (d.moveImmediate dst value) :=
  h.charge (h.before.assign r dst value fun _ => rfl) .alu

/-- Moves that are refused raise their exception on both sides. -/
lemma refuseMove (r : R c d) : Q c.refuseMove d.refuseMove :=
  h.charge (h.before.raise .privilege r) .alu

/-- Moves of a pair are charged on both sides alike. -/
lemma moveDouble (r : R c d) (dst src : Operand) :
    Q (c.moveDouble dst src) (d.moveDouble dst src) := by
  unfold Cpu.moveDouble
  rw [h.before.readPair r]
  exact h.charge (h.before.modifyStatus (fun _ => rfl) (h.before.writePair r dst _)) .doubleAlu

/-- Index moves raise their exception on both sides or on neither. -/
lemma indexMove (r : R c d) (dst src : Operand) (scale : Nat) (limit : Option Word) :
    Q (c.indexMove dst src scale limit) (d.indexMove dst src scale limit) := by
  unfold Cpu.indexMove
  rw [h.before.read r]
  exact h.charge (h.before.raiseIf (h.before.write r dst _) _ .range) .alu

/-- `SET` instructions are charged on both sides alike. -/
lemma set (r : R c d) (dst : Operand) (value : SetValue) : Q (c.set dst value) (d.set dst value) := by
  unfold Cpu.set
  rw [h.before.regs_eq r, h.before.status_eq r]
  exact h.charge (h.before.write r dst _) .alu

/-- Divisions raise their exception on both sides or on neither. -/
lemma divide (r : R c d) (dst src : Operand) (signed : Bool) :
    Q (c.divide dst src signed) (d.divide dst src signed) := by
  unfold Cpu.divide
  rw [h.before.read r, h.before.readPair r]
  refine h.charge ?_ .divide
  split
  · exact h.before.raise .range (h.before.modifyStatus (fun _ => rfl) r)
  · exact h.before.modifyStatus (fun _ => rfl) (h.before.writePair r dst _)

/-- Products take the same time on both sides, since the factors are the same. -/
lemma multiply (r : R c d) (kind : ProductKind) (dst src : Operand) :
    Q (c.multiply kind dst src) (d.multiply kind dst src) := by
  unfold Cpu.multiply
  rw [h.before.read r, h.before.read r]
  refine h.charge ?_ _
  cases kind with
  | unsignedDouble => exact h.before.assignProduct r dst _
  | signedDouble => exact h.before.assignProduct r dst _
  | single => exact h.before.modifyStatus (fun _ => rfl) (h.before.write r dst _)

/-- Signal-processing instructions are charged on both sides alike. -/
lemma accumulate (r : R c d) (f : Accumulation) (dst src : Operand) :
    Q (c.accumulate f dst src) (d.accumulate f dst src) := by
  unfold Cpu.accumulate Cpu.accumulator
  rw [h.before.read r, h.before.read r, h.before.regs_eq r]
  -- The accumulator registers have no effect of their own, so storing them is writing them.
  exact h.charge (h.before.setGlobal Global.accLow _ (h.before.setGlobal Global.accHigh _ r)) .extend

/-! ## Shifts -/

/-- Shifts of a register are charged on both sides alike. -/
lemma shift (r : R c d) (kind : ShiftKind) (dst : Operand) (count : Source) :
    Q (c.shift kind dst count) (d.shift kind dst count) := by
  unfold Cpu.shift
  rw [h.before.read r, h.before.source r]
  exact h.charge (h.before.modifyStatus (fun _ => rfl) (h.before.write r dst _)) .alu

/-- Shifts of a pair are charged on both sides alike. -/
lemma shiftDouble (r : R c d) (kind : ShiftKind) (dst : Operand) (count : Source) :
    Q (c.shiftDouble kind dst count) (d.shiftDouble kind dst count) := by
  unfold Cpu.shiftDouble
  rw [h.before.readPair r, h.before.source r]
  exact h.charge (h.before.modifyStatus (fun _ => rfl) (h.before.writePair r dst _)) .alu

/-- Rotations are charged on both sides alike. -/
lemma rotate (r : R c d) (dst src : Operand) : Q (c.rotate dst src) (d.rotate dst src) := by
  unfold Cpu.rotate
  rw [h.before.read r, h.before.read r]
  exact h.charge (h.before.modifyStatus (fun _ => rfl) (h.before.write r dst _)) .alu

/-! ## Transfers of control -/

/-- Branches lead both sides to the same target. -/
lemma branch (r : R c d) (offset : Word) : Q (c.branch offset) (d.branch offset) := by
  unfold Cpu.branch
  rw [h.before.regs_eq r]
  exact h.charge (h.before.modifyStatus (fun _ => rfl) (h.before.jump _ r)) .branchTaken

/-- Delayed branches leave the same target on both sides, which the relation has to allow. -/
lemma delayedBranch (r : R c d) (offset : Word) (delay : KeepsDelay R) :
    Q (c.delayedBranch offset) (d.delayedBranch offset) := by
  unfold Cpu.delayedBranch
  rw [h.before.regs_eq r]
  exact h.charge (h.before.block 2 (delay _ r)) .delayedBranchTaken

/-- Calls stack the same words on both sides. -/
lemma call (r : R c d) (code : Nat) (src : Operand) (addend : Word) :
    Q (c.call code src addend) (d.call code src addend) := by
  have noted := h.before.noteLength r d.length
  unfold Cpu.call
  dsimp only
  rw [h.before.readBeyondCarry r, h.before.length_eq r]
  rw [h.before.returnPc noted, h.before.status_eq noted]
  have filled := h.before.fillFrame [(d.noteLength d.length).returnPc,
    (d.noteLength d.length).status.bits] code noted
  exact h.charge (h.before.block 2 (h.before.jump _ (h.before.modifyStatus (fun _ => rfl) filled))) .controlTransfer

/-- Traps are entered on both sides or on neither. -/
lemma trap (r : R c d) (number : Nat) (condition : Option Condition) :
    Q (c.trap number condition) (d.trap number condition) := by
  unfold Cpu.trap
  rw [h.before.status_eq r]
  refine h.charge ?_ .controlTransfer
  split
  · exact h.before.enterTrap number r
  · exact r

/-- Transfers of a reserved kind are reported on both sides. -/
lemma reservedTransfer (r : R c d) (address : Operand) (step : Word) (report : Diagnostic) :
    Q (c.reservedTransfer address step report) (d.reservedTransfer address step report) := by
  unfold Cpu.reservedTransfer
  rw [h.before.read r]
  exact h.charge (h.before.report report (h.before.write r address _)) .memoryWord

end Charging

/-! ## Invariants -/

/-- A property of a processor that no elementary step loses. -/
structure Invariant (P : Cpu → Prop) : Prop where
  begin {c : Cpu} : P c → P c.begin
  continueAt {c : Cpu} (cursor : Cursor) : P c → P (c.continueAt cursor)
  redirect {c : Cpu} : P c → P c.redirect
  modifyStatus {c : Cpu} {f : Status → Status} (keeps : Status.KeepsMode f) :
    P c → P (c.modifyStatus f)
  setLocalAt {c : Cpu} (slot : Fin 64) (value : Word) :
    P c → P (c.modifyRegs (·.setLocalAt slot value))
  setSp {c : Cpu} (value : Word) : P c → P (c.modifyRegs (·.setSp value))
  setGlobal {c : Cpu} (code : Nat) (value : Word) : P c → P (c.setGlobal code value)
  jump {c : Cpu} (target : Word) : P c → P (c.jump target)
  spend {c : Cpu} (n : Nat) : P c → P (c.spend n)
  block {c : Cpu} (n : Nat) : P c → P (c.block n)
  report {c : Cpu} (report : Diagnostic) : P c → P (c.report report)
  enterTrap {c : Cpu} (number : Nat) : P c → P (c.enterTrap number)
  raise {c : Cpu} (exception : Exception) : P c → P (c.raise exception)
  enterEmulation {c : Cpu} (byte : Byte) (dst src : Nat) : P c → P (c.enterEmulation byte dst src)
  resume {c : Cpu} (address saved : Word) : P c → P (c.resume address saved)

namespace Invariant

variable {P : Cpu → Prop} (h : Invariant P)
include h

/-- An invariant is the congruence between equal processors that have it. -/
lemma congruence : Congruence fun c d => c = d ∧ P c where
  regs_eq r := by rw [r.1]
  length_eq r := by rw [r.1]
  scale_eq r := by rw [r.1]
  begin := by rintro c _ ⟨rfl, p⟩; exact ⟨rfl, h.begin p⟩
  continueAt cursor := by rintro ⟨rfl, p⟩; exact ⟨rfl, h.continueAt cursor p⟩
  redirect := by rintro c _ ⟨rfl, p⟩; exact ⟨rfl, h.redirect p⟩
  modifyStatus keeps := by rintro ⟨rfl, p⟩; exact ⟨rfl, h.modifyStatus keeps p⟩
  setLocalAt slot value := by rintro ⟨rfl, p⟩; exact ⟨rfl, h.setLocalAt slot value p⟩
  setSp value := by rintro ⟨rfl, p⟩; exact ⟨rfl, h.setSp value p⟩
  setGlobal code value := by rintro ⟨rfl, p⟩; exact ⟨rfl, h.setGlobal code value p⟩
  jump target := by rintro ⟨rfl, p⟩; exact ⟨rfl, h.jump target p⟩
  spend n := by rintro ⟨rfl, p⟩; exact ⟨rfl, h.spend n p⟩
  block n := by rintro ⟨rfl, p⟩; exact ⟨rfl, h.block n p⟩
  report report := by rintro ⟨rfl, p⟩; exact ⟨rfl, h.report report p⟩
  enterTrap number := by rintro ⟨rfl, p⟩; exact ⟨rfl, h.enterTrap number p⟩
  raise exception := by rintro ⟨rfl, p⟩; exact ⟨rfl, h.raise exception p⟩
  enterEmulation byte dst src := by rintro ⟨rfl, p⟩; exact ⟨rfl, h.enterEmulation byte dst src p⟩
  resume address saved := by rintro ⟨rfl, p⟩; exact ⟨rfl, h.resume address saved p⟩

/-- Reading the tick count loses no invariant. -/
lemma keepsTicks : KeepsTicks fun c d => c = d ∧ P c := by
  rintro c _ ⟨rfl, p⟩
  refine ⟨rfl, rfl, ?_⟩
  unfold Cpu.readTicks
  dsimp only
  split
  · exact h.spend _ p
  · exact p

end Invariant

end Cpu

end E1Machine
