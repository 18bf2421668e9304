import E1Machine.Proofs.Changes
import E1Machine.Effect
import Mathlib.Logic.Relation

/-!
# How an instruction ends

The effect of an instruction is a sequence of pieces of work: flags are set, registers that the
instruction names are written, time is spent. `Cpu.Work` lists them once for all instructions. After its
work an instruction is done, or enters a handler, and then nothing but time passes. The one exception is
a store that advances its address register: there the register is written when the range error has
already been raised.

Main statement: `Machine.execute_outcome`, every instruction ends in one of these ways. Whatever holds
of all work an instruction can do is proved by cases on `Cpu.Work`, without a look at the effects.
-/

namespace E1Machine

/-- A change of the status register that keeps mode and frame: only the flags and the length may differ
afterwards. -/
def Status.KeepsFrame (f : Status → Status) : Prop :=
  ∀ s, f s = { s with
    c := (f s).c, z := (f s).z, n := (f s).n, v := (f s).v, m := (f s).m, ilc := (f s).ilc }

/-- The address register, if it is advanced. -/
def Addressing.targets : Addressing → List Operand
  | offset _ _ => []
  | advancing address _ => [address]

/-- The registers that receive data in a form: one or a pair. -/
def DataForm.targets (data : Operand) : DataForm → List Operand
  | double | ioDouble => [data, data.next]
  | byte _ | half _ | word | ioWord | stack => [data]

/-- Whether data is extended by its sign. -/
def DataForm.isSigned : DataForm → Bool
  | byte signed | half signed => signed
  | word | double | ioWord | ioDouble | stack => false

/-- Only a signed form loses part of a value. -/
lemma DataForm.signed_of_loses {form : DataForm} {value : Word} (loses : form.loses value = true) :
    form.isSigned = true := by
  cases form with
  | byte | half => exact (Bool.and_eq_true_iff.mp loses).1
  | _ => cases loses

/-- The registers that an instruction writes as its results. -/
def Instruction.targets : Instruction → List Operand
  | indexMove dst _ _ _ | mask dst _ _ | sum dst _ _ _ | add dst _ _ | sub dst _ _ | neg dst _ _
  | addCarry dst _ | subCarry dst _ | round dst _ | logical _ dst _ | complement dst _ | move dst _
  | moveImmediate dst _ | shift _ dst _ | leadingZeros dst _ | rotate dst _ | set dst _
  | multiply .single dst _ => [dst]
  | moveDouble dst _ | divide dst _ _ | shiftDouble _ dst _ | multiply .unsignedDouble dst _
  | multiply .signedDouble dst _ => [dst, dst.next]
  | load form addressing data => addressing.targets ++ form.targets data
  | store _ addressing _ => addressing.targets
  | reservedTransfer address _ _ => [address]
  | accumulate _ _ _ => [⟨.globals, Global.accHigh⟩, ⟨.globals, Global.accLow⟩]
  | check _ _ | ret _ | compare _ _ | testBits _ _ | testZeroByte _ | privileged | emulate _ _ _
  | delayedBranch _ | branch _ | fallThrough | frame _ _ | call _ _ _ | trap _ _ | undefined _ _
  | reserved _ => []

/-- The exceptions that an instruction can raise. -/
def Instruction.exceptions : Instruction → List Exception
  | check _ _ | divide _ _ _ | indexMove _ _ _ _ | sum _ _ _ true | add _ _ true | sub _ _ true
  | neg _ _ true | round _ true => [.range]
  | store form _ _ => if form.isSigned then [.range] else []
  | privileged | ret _ => [.privilege]
  | frame _ _ => [.frame]
  | _ => []

/-- The register that an instruction writes when it may already have raised an exception. -/
def Instruction.late : Instruction → Option Operand
  | store form (.advancing address _) _ => if form.isSigned then some address else none
  | _ => none

/-- Only a store that advances its address register may write it after an exception. -/
lemma Instruction.late_eq {i : Instruction} {address : Operand} (late : i.late = some address) :
    ∃ form step data, i = .store form (.advancing address step) data := by
  unfold Instruction.late at late
  split at late
  · split at late
    · cases late
      exact ⟨_, _, _, rfl⟩
    · cases late
  · cases late

namespace Cpu

/-- A piece of work that an instruction does before it ends. -/
inductive Work : Instruction → Cpu → Cpu → Prop where
  | flags {i : Instruction} {c : Cpu} {f : Status → Status} (keeps : Status.KeepsFrame f) :
    Work i c (c.modifyStatus f)
  | write {i : Instruction} {c : Cpu} {o : Operand} (target : o ∈ i.targets) (value : Word) :
    Work i c (c.write o value)
  | spend {i : Instruction} {c : Cpu} (n : Nat) : Work i c (c.spend n)
  | report {i : Instruction} {c : Cpu} (report : Diagnostic) : Work i c (c.report report)
  | push {addressing : Addressing} {data : Operand} {c : Cpu} (slot : Fin 64) (value : Word) :
    Work (.store .stack addressing data) c (c.modifyRegs (·.setLocalAt slot value))
  | branch {offset : Word} {c : Cpu} (target : Word) : Work (.branch offset) c (c.jump target)
  | delay {offset : Word} {c : Cpu} (target : Word) :
    Work (.delayedBranch offset) c ((c.delayTo target).block 2)
  | call {code : Nat} {src : Operand} {addend : Word} {c : Cpu} (stacked : List Word) (target : Word) :
    Work (.call code src addend) c ((((c.fillFrame code stacked).modifyStatus fun s =>
      { s with fp := s.fp + BitVec.ofNat 7 code, fl := 6, m := false }).jump target).block 2)
  | reframe {back length : BitVec 4} {c : Cpu} :
    Work (.frame back length) c (c.reframe back length)
  | spill {back length : BitVec 4} {c : Cpu} (sp : Word) :
    Work (.frame back length) c (c.modifyRegs (·.setSp sp))
  | resume {src : Operand} {c : Cpu} (address saved : Word) :
    Work (.ret src) c (c.resume address saved)
  | refill {src : Operand} {c : Cpu} (sp : Word) (slot : Fin 64) (value : Word) :
    Work (.ret src) c
      ((c.modifyRegs (·.setSp sp)).modifyRegs (·.setLocalAt slot value))

/-- The work that an instruction has done so far. -/
abbrev Worked (i : Instruction) : Cpu → Cpu → Prop := Relation.ReflTransGen (Work i)

/-- The handler that an instruction can enter. -/
inductive EntersBy : Instruction → Cpu → Cpu → Prop where
  | trap {number : Nat} {condition : Option Condition} {c : Cpu} :
    EntersBy (.trap number condition) c (c.enterTrap number)
  | emulation {byte : Byte} {dst src : Nat} {c : Cpu} :
    EntersBy (.emulate byte dst src) c (c.enterEmulation byte dst src)
  | exception {i : Instruction} {c : Cpu} {exception : Exception} (raises : exception ∈ i.exceptions) :
    EntersBy i c (c.raise exception)

/-- How an instruction ends when its work is done. -/
inductive Ends : Instruction → Cpu → Cpu → Prop where
  | done {i : Instruction} {c : Cpu} : Ends i c c
  | enters {i : Instruction} {c d : Cpu} (enters : EntersBy i c d) (n : Nat) : Ends i c (d.spend n)
  | advances {i : Instruction} {c : Cpu} {address : Operand} (late : i.late = some address)
    (value : Word) : Ends i c ((c.raise .range).write address value)

/-- The work of an instruction and its end lead from a processor to another. -/
def Outcome (i : Instruction) (c d : Cpu) : Prop := ∃ e, Worked i c e ∧ Ends i e d

/-- Whatever handler an instruction enters, it is an entry. -/
lemma EntersBy.enters {i : Instruction} {c d : Cpu} (enters : EntersBy i c d) : Enters c d := by
  cases enters with
  | trap => exact c.enterTrap_enters _
  | emulation => exact c.enterEmulation_enters _ _ _
  | exception => exact c.raise_enters _

/-- Spending nothing changes nothing. -/
lemma spend_zero (c : Cpu) : c.spend 0 = c := by
  simp [spend]

namespace Worked

variable {i : Instruction} {c d : Cpu} (w : Worked i c d)
include w

/-- Setting flags is work. -/
lemma flags {f : Status → Status} (keeps : Status.KeepsFrame f) : Worked i c (d.modifyStatus f) :=
  w.tail (.flags keeps)

/-- Noting a length is work. -/
lemma noteLength (halfwords : Nat) : Worked i c (d.noteLength halfwords) := w.flags fun _ => rfl

/-- Writing a target is work. -/
lemma write {o : Operand} (target : o ∈ i.targets) (value : Word) :
    Worked i c (d.write o value) :=
  w.tail (.write target value)

/-- Writing a pair of targets is work. -/
lemma writePair {o : Operand} (targets : [o, o.next] ⊆ i.targets) (value : Double) :
    Worked i c (d.writePair o value) :=
  (w.write (targets List.mem_cons_self) _).write
    (targets (List.mem_cons_of_mem _ List.mem_cons_self)) _

/-- Writing a target with its flags is work. -/
lemma assign {dst : Operand} (target : dst ∈ i.targets) (value : Word) {flags : Status → Status}
    (keeps : Status.KeepsFrame flags) : Worked i c (d.assign dst value flags) := by
  have written := (w.write target value).flags keeps
  unfold Cpu.assign
  cases dst.isPc with
  | false => exact written
  | true => exact written.flags fun _ => rfl

/-- Spending the cost is work. -/
lemma charge (kind : CostClass) : Worked i c (d.charge kind) := w.tail (.spend _)

/-- Reading a register for a move can take time. -/
lemma readMoved (src : Operand) : Worked i c (d.readMoved src).2 := by
  unfold Cpu.readMoved Cpu.readGlobal Cpu.readTicks
  dsimp only
  split
  · split
    · exact w
    · split
      · dsimp only
        split
        · exact w.tail (.spend _)
        · exact w
      · exact w
  · exact w

/-! ## Ends -/

/-- An instruction may be done when it has worked. -/
lemma done : Outcome i c d := ⟨d, w, .done⟩

/-- An instruction may enter a handler when it has worked. -/
lemma entersBy {e : Cpu} (enters : EntersBy i d e) : Outcome i c e :=
  ⟨d, w, e.spend_zero ▸ .enters enters 0⟩

/-- The cost of an instruction may be spent after it has entered a handler. -/
lemma entersBy_charge {e : Cpu} (enters : EntersBy i d e) (kind : CostClass) :
    Outcome i c (e.charge kind) :=
  ⟨d, w, .enters enters _⟩

/-- An instruction may raise one of its exceptions, or be done. -/
lemma raiseIf {condition : Bool} {exception : Exception}
    (raises : condition = true → exception ∈ i.exceptions) :
    Outcome i c (d.raiseIf condition exception) := by
  cases condition with
  | false => exact w.done
  | true => exact w.entersBy (.exception (raises rfl))

/-- The cost of an instruction may be spent after it has raised an exception, if it does. -/
lemma raiseIf_charge {condition : Bool} {exception : Exception} (raises : exception ∈ i.exceptions)
    (kind : CostClass) : Outcome i c ((d.raiseIf condition exception).charge kind) := by
  cases condition with
  | false => exact (w.charge kind).done
  | true => exact w.entersBy_charge (.exception raises) kind

/-- A sum or difference is written and charged before its range error is raised. -/
lemma finishAdder {dst : Operand} (target : dst ∈ i.targets) (r : AdderResult) {signed : Bool}
    (raises : signed = true → .range ∈ i.exceptions) : Outcome i c (d.finishAdder dst r signed) := by
  unfold Cpu.finishAdder
  split
  · next eq => exact ((w.assign target _ fun _ => rfl).charge .alu).raiseIf fun _ => raises eq
  · exact ((w.assign target _ fun _ => rfl).charge .alu).done

end Worked

/-! ## Effects on the processor -/

/-- A processor that has resumed at an address with a saved status register: it stands there, in the state
that bit 0 of the address says, and no handler has been entered. -/
structure Resumed (c : Cpu) (address saved : Word) (d : Cpu) : Prop where
  status : d.status = { Status.ofBits saved with s := address.getLsbD 0, ilc := 0 }
  pc : d.regs.pc = alignHalf address
  entries : d.entries = c.entries

/-- Resuming sets the program counter and the saved status, and enters nothing. -/
lemma resume_resumed (c : Cpu) (address saved : Word) :
    c.Resumed address saved (c.resume address saved) where
  status := rfl
  pc := (Registers.global_setStatus _ _ (by decide)).trans (c.regs.pc_setPc address)
  entries := rfl

/-- A refill changes neither. -/
lemma Resumed.refill {c d : Cpu} {address saved : Word} (resumed : c.Resumed address saved d) (sp : Word)
    (slot : Fin 64) (value : Word) : c.Resumed address saved
      ((d.modifyRegs (·.setSp sp)).modifyRegs (·.setLocalAt slot value)) where
  status := (Registers.status_setGlobal d.regs _ _ (by decide)).trans resumed.status
  pc := ((d.regs.global_setGlobal _ _ _).trans (if_neg (by decide))).trans resumed.pc
  entries := resumed.entries

/-- A division writes its pair, or raises a range error with `V` set. -/
lemma divide_outcome (c : Cpu) (dst src : Operand) (signed : Bool) :
    Outcome (.divide dst src signed) c (c.divide dst src signed) := by
  have w : Worked (.divide dst src signed) c c := .refl
  unfold divide
  dsimp only
  split
  · exact (w.flags fun _ => rfl).entersBy_charge (.exception (List.mem_singleton_self _)) .divide
  · exact (((w.writePair (List.Subset.refl _) _).flags fun _ => rfl).charge .divide).done

/-- A product is written to its target, or to a pair. -/
lemma multiply_outcome (c : Cpu) (kind : ProductKind) (dst src : Operand) :
    Outcome (.multiply kind dst src) c (c.multiply kind dst src) := by
  have w : Worked (.multiply kind dst src) c c := .refl
  unfold multiply
  cases kind with
  | unsignedDouble | signedDouble =>
    exact (((w.writePair (List.Subset.refl _) _).flags fun _ => rfl).charge _).done
  | single =>
    exact (((w.write (List.mem_singleton_self dst) _).flags fun _ => rfl).charge _).done

/-- A call stacks its return address, moves the frame and jumps. -/
lemma call_outcome (c : Cpu) (code : Nat) (src : Operand) (addend : Word) :
    Outcome (.call code src addend) c (c.call code src addend) := by
  have w : Worked (.call code src addend) c c := .refl
  have called := (w.noteLength c.length).tail (.call
    [(c.noteLength c.length).returnPc, (c.noteLength c.length).status.bits]
    (alignHalf addend + c.readBeyondCarry src))
  exact (Worked.charge called .controlTransfer).done

/-- A trap enters its handler if its condition holds. -/
lemma trap_outcome (c : Cpu) (number : Nat) (condition : Option Condition) :
    Outcome (.trap number condition) c (c.trap number condition) := by
  have w : Worked (.trap number condition) c c := .refl
  unfold trap
  split
  · exact w.entersBy_charge .trap .controlTransfer
  · exact (w.charge .controlTransfer).done

end Cpu

namespace Machine

variable {β : Type} [Bus β]

/-! ## Effects on the machine -/

section

variable {i : Instruction} {c : Cpu}

omit [Bus β] in
/-- What an action keeps, its repetition keeps. -/
lemma times_keeps {P : Machine β → Prop} {x : Exec β Unit} (once : ∀ {m : Machine β}, P m → P (x.run m).2)
    (n : Nat) : ∀ {m : Machine β}, P m → P ((times n x).run m).2 := by
  induction n with
  | zero => exact fun kept => kept
  | succ n ih => exact fun kept => ih (once kept)

/-- A stack load reads memory below the stack pointer, and the bank from there on. -/
lemma loadData_stack_run (m : Machine β) (addr : Word) (data : Operand) :
    (loadData .stack addr data).run m =
      ((), if addr.ult m.cpu.regs.sp then
          ⟨m.cpu.write data ((Bus.readWord (alignWord addr)).run m.bus).1,
            ((Bus.readWord (alignWord addr)).run m.bus).2⟩
        else ⟨m.cpu.write data (m.cpu.regs.localAt (stackCell addr)), m.bus⟩) := by
  have run : (loadData .stack addr data).run m =
      (if addr.ult m.cpu.regs.sp then readWord addr >>= fun value => modifyCpu (·.write data value)
      else modifyCpu (·.write data (m.cpu.regs.localAt (stackCell addr))) : Exec β Unit).run m := rfl
  rw [run]
  split <;> rfl

/-- A stack store writes where a stack load reads, and raises no range error. -/
lemma storeData_stack_run (m : Machine β) (addr : Word) (data : Operand) :
    (storeData .stack addr data).run m =
      ((), if addr.ult m.cpu.regs.sp then
          ⟨m.cpu, ((Bus.writeWord (alignWord addr) (m.cpu.stored data).1).run m.bus).2⟩
        else ⟨m.cpu.modifyRegs (·.setLocalAt (stackCell addr) (m.cpu.stored data).1), m.bus⟩) := by
  have run : (storeData .stack addr data).run m =
      ((if addr.ult m.cpu.regs.sp then writeWord addr (m.cpu.stored data).1
        else modifyCpu (·.modifyRegs (·.setLocalAt (stackCell addr) (m.cpu.stored data).1))) >>=
        fun _ => modifyCpu (·.raiseIf (DataForm.stack.loses (m.cpu.stored data).1) .range) :
        Exec β Unit).run m := rfl
  rw [run]
  split <;> rfl

/-- A load writes its data registers, whatever the bus answers. -/
lemma loadData_worked {m : Machine β} {form : DataForm} {data : Operand}
    (targets : form.targets data ⊆ i.targets) (w : Cpu.Worked i c m.cpu) (addr : Word) :
    Cpu.Worked i c ((loadData form addr data).run m).2.cpu := by
  cases form with
  | byte | half | word | ioWord =>
    exact w.write (targets (List.mem_singleton_self data)) _
  | double | ioDouble => exact w.writePair targets _
  | stack =>
    have write := w.write (targets (List.mem_singleton_self data))
    rw [loadData_stack_run]
    split
    · exact write _
    · exact write _

/-- A load writes its data and advances its address register. -/
lemma load_outcome (m : Machine β) (form : DataForm) (addressing : Addressing) (data : Operand) :
    Cpu.Outcome (.load form addressing data) m.cpu
      ((load form addressing data).run m).2.cpu := by
  have w : Cpu.Worked (.load form addressing data) m.cpu m.cpu := .refl
  have advanced : Cpu.Worked (.load form addressing data) m.cpu
      (m.cpu.advanceAddress (m.cpu.transferAddress addressing) addressing) := by
    cases addressing with
    | offset base offset => exact w
    | advancing address step => exact w.write List.mem_cons_self _
  have loaded := loadData_worked
    (m := ⟨m.cpu.advanceAddress (m.cpu.transferAddress addressing) addressing, m.bus⟩)
    (List.subset_append_right _ _) advanced (m.cpu.transferAddress addressing)
  exact (loaded.charge form.cost).done

/-- What a store leaves before its address register is advanced: a stack store may have written a local
register, and a range error is raised if the value does not fit. -/
lemma storeData_cpu (m : Machine β) (form : DataForm) (addr : Word) (data : Operand) :
    ∃ d, (d = m.cpu ∨ form = .stack ∧
        d = m.cpu.modifyRegs (·.setLocalAt (stackCell addr) (m.cpu.stored data).1)) ∧
      ((storeData form addr data).run m).2.cpu =
        d.raiseIf (form.loses (m.cpu.stored data).1) .range := by
  cases form with
  | stack =>
    rw [storeData_stack_run]
    split
    · exact ⟨_, .inl rfl, rfl⟩
    · exact ⟨_, .inr ⟨rfl, rfl⟩, rfl⟩
  | _ => exact ⟨_, .inl rfl, rfl⟩

/-- A store is charged first and advances its address register last. -/
lemma store_cpu (m : Machine β) (form : DataForm) (addressing : Addressing) (data : Operand) :
    ∃ d, (d = m.cpu.charge form.cost ∨ form = .stack ∧ ∃ slot value,
        d = (m.cpu.charge form.cost).modifyRegs (·.setLocalAt slot value)) ∧
      ((store form addressing data).run m).2.cpu =
        (d.raiseIf (form.loses (m.cpu.stored data).1) .range).advanceAddress
          (m.cpu.transferAddress addressing) addressing := by
  obtain ⟨d, left, run⟩ := storeData_cpu (⟨m.cpu.charge form.cost, m.bus⟩ : Machine β) form
    (m.cpu.transferAddress addressing) data
  refine ⟨d, left.imp id fun ⟨stack, eq⟩ => ⟨stack, _, _, eq⟩, ?_⟩
  show (((storeData form (m.cpu.transferAddress addressing) data).run
    ⟨m.cpu.charge form.cost, m.bus⟩).2.cpu).advanceAddress _ _ = _
  rw [run]
  rfl

/-- A store may raise a range error before it advances its address register. -/
lemma store_outcome (m : Machine β) (form : DataForm) (addressing : Addressing) (data : Operand) :
    Cpu.Outcome (.store form addressing data) m.cpu
      ((store form addressing data).run m).2.cpu := by
  obtain ⟨d, left, run⟩ := m.store_cpu form addressing data
  have w : Cpu.Worked (.store form addressing data) m.cpu d := by
    have charged : Cpu.Worked (.store form addressing data) m.cpu (m.cpu.charge form.cost) :=
      Cpu.Worked.charge .refl _
    obtain rfl | ⟨rfl, slot, value, rfl⟩ := left
    · exact charged
    · exact charged.tail (.push slot value)
  rw [run]
  cases addressing with
  | offset base offset =>
    refine w.raiseIf fun loses => ?_
    simp [Instruction.exceptions, DataForm.signed_of_loses loses]
  | advancing address step =>
    -- The error comes before the advance, which makes such a store one of the late instructions.
    cases loses : form.loses (m.cpu.stored data).1 with
    | false => exact (w.write (List.mem_singleton_self address) _).done
    | true =>
      refine ⟨d, w, .advances ?_ _⟩
      simp [Instruction.late, DataForm.signed_of_loses loses]

/-- A frame is opened by spills, and may end in a frame error. The processor that spills is given a name, so that
nothing computes how much it spills. -/
lemma frame_spills (m : Machine β) (back length : BitVec 4) :
    ∃ c overflows, c = m.cpu.reframe back length ∧ (frame back length).run m =
      ((), ⟨(((times c.spillCount spill).run ⟨c, m.bus⟩).2.cpu.raiseIf overflows .frame).charge
        .controlTransfer, ((times c.spillCount spill).run ⟨c, m.bus⟩).2.bus⟩) := by
  obtain ⟨c, eq⟩ : ∃ c, c = m.cpu.reframe back length := ⟨_, rfl⟩
  refine ⟨c, 0 < c.spillCount && (c.regs.global Global.ub).ule c.regs.sp, eq, ?_⟩
  unfold frame
  simp only [run_bind, run_modifyCpu, run_getCpu, ← eq]
  rfl

/-- A return is made by refills, and ends in a privilege error if it breaks privilege. -/
lemma ret_refills (m : Machine β) (src : Operand) :
    ∃ c, c = m.cpu.resume (m.cpu.read src) (m.cpu.read src.next) ∧ (ret src).run m =
      ((), ⟨(((times c.refillCount refill).run ⟨c, m.bus⟩).2.cpu.raiseIf
          (Cpu.breaksPrivilege m.cpu.status
            ((times c.refillCount refill).run ⟨c, m.bus⟩).2.cpu.status) .privilege).charge
        .controlTransfer, ((times c.refillCount refill).run ⟨c, m.bus⟩).2.bus⟩) := by
  obtain ⟨c, eq⟩ : ∃ c, c = m.cpu.resume (m.cpu.read src) (m.cpu.read src.next) := ⟨_, rfl⟩
  refine ⟨c, eq, ?_⟩
  unfold ret
  simp only [run_bind, run_modifyCpu, run_getCpu, ← eq]

/-- A frame is opened by spills, and may raise a frame error. -/
lemma frame_outcome (m : Machine β) (back length : BitVec 4) :
    Cpu.Outcome (.frame back length) m.cpu ((frame back length).run m).2.cpu := by
  have reframed : Cpu.Worked (.frame back length) m.cpu (m.cpu.reframe back length) := .single .reframe
  obtain ⟨c, overflows, eq, run⟩ := m.frame_spills back length
  rw [← eq] at reframed
  have spilled := times_keeps (P := fun d => Cpu.Worked (.frame back length) m.cpu d.cpu) (x := spill)
    (fun {d} w => w.tail (.spill (d.cpu.regs.sp + 4))) c.spillCount (m := ⟨c, m.bus⟩) reframed
  rw [run]
  exact spilled.raiseIf_charge (List.mem_singleton_self _) .controlTransfer

/-- A return raises a privilege error when all its work is done, and so in the state to which it returns. -/
lemma ret_cpu (m : Machine β) (src : Operand) : ∃ c, Cpu.Worked (.ret src) m.cpu c ∧
    m.cpu.Resumed (m.cpu.read src) (m.cpu.read src.next) c ∧
    ((ret src).run m).2.cpu =
      (c.raiseIf (Cpu.breaksPrivilege m.cpu.status c.status) .privilege).charge
        .controlTransfer := by
  obtain ⟨c, eq, run⟩ := m.ret_refills src
  have w : Cpu.Worked (.ret src) m.cpu c := by
    rw [eq]
    exact .single (.resume _ _)
  have resumed : m.cpu.Resumed (m.cpu.read src) (m.cpu.read src.next) c := by
    rw [eq]
    exact m.cpu.resume_resumed _ _
  obtain ⟨refilled, kept⟩ := times_keeps (x := refill)
    (P := fun d => Cpu.Worked (.ret src) m.cpu d.cpu ∧
      m.cpu.Resumed (m.cpu.read src) (m.cpu.read src.next) d.cpu)
    (fun {d} kept => ⟨kept.1.tail (.refill (d.cpu.regs.sp - 4) _ _), kept.2.refill _ _ _⟩)
    c.refillCount (m := ⟨c, m.bus⟩) ⟨w, resumed⟩
  exact ⟨_, refilled, kept, by rw [run]⟩

/-- A return resumes and refills, and may raise a privilege error. -/
lemma ret_outcome (m : Machine β) (src : Operand) :
    Cpu.Outcome (.ret src) m.cpu ((ret src).run m).2.cpu := by
  obtain ⟨c, refilled, -, run⟩ := m.ret_cpu src
  rw [run]
  exact refilled.raiseIf_charge (List.mem_singleton_self _) .controlTransfer

end

/-- Every instruction does its work and then is done or enters a handler, where only a store that
advances its address register does more than let time pass. -/
theorem execute_outcome (m : Machine β) (i : Instruction) :
    Cpu.Outcome i m.cpu ((execute i).run m).2.cpu := by
  have w : Cpu.Worked i m.cpu m.cpu := .refl
  cases i with
  | check dst src => exact w.raiseIf_charge (List.mem_singleton_self _) .alu
  | moveDouble dst src =>
    exact (((w.writePair (List.Subset.refl _) _).flags fun _ => rfl).charge .doubleAlu).done
  | ret src => exact m.ret_outcome src
  | divide dst src signed => exact m.cpu.divide_outcome dst src signed
  | indexMove dst src scale limit =>
    exact (w.write (List.mem_singleton_self dst) _).raiseIf_charge (List.mem_singleton_self _) .alu
  | mask dst src mask =>
    exact (((w.write (List.mem_singleton_self dst) _).flags fun _ => rfl).charge .alu).done
  | sum dst _ _ signed | add dst _ signed | sub dst _ signed | neg dst _ signed
  | round dst signed =>
    refine w.finishAdder (List.mem_singleton_self dst) _ ?_
    rintro rfl
    exact List.mem_singleton_self _
  | addCarry dst | subCarry dst | logical op dst | complement dst | moveImmediate dst =>
    exact ((w.assign (List.mem_singleton_self dst) _ fun _ => rfl).charge .alu).done
  | compare | testBits | testZeroByte => exact ((w.flags fun _ => rfl).charge .alu).done
  | move dst src =>
    exact (((w.readMoved src).assign (List.mem_singleton_self dst) _ fun _ => rfl).charge .alu).done
  | privileged => exact w.entersBy_charge (.exception (List.mem_singleton_self _)) .alu
  | shift kind dst | rotate dst =>
    exact (((w.write (List.mem_singleton_self dst) _).flags fun _ => rfl).charge .alu).done
  | shiftDouble kind dst count =>
    exact (((w.writePair (List.Subset.refl _) _).flags fun _ => rfl).charge .alu).done
  | leadingZeros dst | set dst => exact ((w.write (List.mem_singleton_self dst) _).charge .alu).done
  | load form addressing data => exact m.load_outcome form addressing data
  | store form addressing data => exact m.store_outcome form addressing data
  | reservedTransfer address step report =>
    exact ((Cpu.Worked.charge ((w.write (List.mem_singleton_self address) _).tail
      (.report report))) .memoryWord).done
  | multiply kind dst src => exact m.cpu.multiply_outcome kind dst src
  | emulate byte dst src => exact w.entersBy .emulation
  | accumulate f dst src =>
    -- The accumulator registers have no effect of their own, so storing them is writing them.
    have high := w.write (o := ⟨.globals, Global.accHigh⟩) List.mem_cons_self
    exact (((high _).write (o := ⟨.globals, Global.accLow⟩)
      (List.mem_cons_of_mem _ List.mem_cons_self) _).charge .extend).done
  | delayedBranch offset => exact (Cpu.Worked.charge (w.tail (.delay _)) .delayedBranchTaken).done
  | branch offset =>
    exact ((Cpu.Worked.flags (w.tail (.branch _)) fun _ => rfl).charge .branchTaken).done
  | fallThrough => exact (w.charge .branchNotTaken).done
  | frame back length => exact m.frame_outcome back length
  | call code src addend => exact m.cpu.call_outcome code src addend
  | trap number condition => exact m.cpu.trap_outcome number condition
  | undefined report cost => exact (Cpu.Worked.charge (w.tail (.report report)) cost).done
  | reserved report => exact (Cpu.Worked.charge (w.tail (.report report)) .alu).done

end Machine

end E1Machine
