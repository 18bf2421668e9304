import E1Machine.Bus.Flat
import E1Machine.Proofs.Cycle
import E1Machine.Proofs.Frames
import E1Machine.Proofs.Moves
import E1Machine.Proofs.Outcome

/-!
# User code is confined

In user state no instruction reaches the control registers, the anchor of the trap table or the prescale
of the timer, and supervisor state is entered only through the trap table and with interrupts locked.

Decoding keeps user code away from the high global registers: what it finds in user state writes no
global register above 16, which is the partner of register 15 in a pair (`Decode.decode_isUser`). No
other work of an instruction touches control state (`Cpu.Work.confined`), and only a return can set the
supervisor flag, which then raises a privilege error. An entry sets the flag together with the lock.

Main statement: `Machine.user_confined`.
-/

namespace E1Machine

/-! ## What user code can name -/

/-- Whether a register is open to user code: a local one, or a global one up to 16. -/
def Operand.IsUser (o : Operand) : Prop := o.bank = .globals → o.code ≤ 16

/-- An instruction that writes nothing but registers open to user code, and neither the program counter
nor the status register when it may already have raised an exception. -/
structure Instruction.IsUser (i : Instruction) : Prop where
  targets (o : Operand) (target : o ∈ i.targets) : o.IsUser
  late (o : Operand) (late : i.late = some o) : o.IsUser ∧ o.isPc = false ∧ o.isSr = false

/-- A move of a register or of a literal. -/
inductive Instruction.IsMove : Instruction → Prop where
  | register (dst src : Operand) : IsMove (.move dst src)
  | literal (dst : Operand) (value : Word) : IsMove (.moveImmediate dst value)

/-- A register that a field of an instruction word names is open to user code, and its partner too. -/
lemma Operand.isUser_of_field {o : Operand} (field : o.code < 16) : o.IsUser ∧ o.next.IsUser := by
  obtain ⟨bank, code⟩ := o
  dsimp only at field
  refine ⟨fun _ => Nat.le_of_lt field, ?_⟩
  cases bank with
  | globals =>
    rintro -
    show (code + 1) % 32 ≤ 16
    omega
  | locals => exact nofun

/-- A transfer has its register as target, and for two words the next one. -/
lemma DataForm.targets_subset (form : DataForm) (data : Operand) :
    form.targets data ⊆ [data, data.next] := by
  cases form <;> simp [DataForm.targets]

namespace Instruction

/-- An instruction whose targets are a pair or less. -/
lemma isUser_of_pair {i : Instruction} {o : Operand} (field : o.code < 16)
    (targets : i.targets ⊆ [o, o.next]) (late : i.late = none) : i.IsUser := by
  obtain ⟨first, second⟩ := Operand.isUser_of_field field
  refine ⟨fun t target => ?_, by rw [late]; exact nofun⟩
  have pair := targets target
  simp only [List.mem_cons, List.not_mem_nil, or_false] at pair
  obtain rfl | rfl := pair
  · exact first
  · exact second

/-- An instruction that writes no register is one of user code. -/
lemma isUser_of_nil {i : Instruction} (targets : i.targets = []) (late : i.late = none) : i.IsUser :=
  isUser_of_pair (o := ⟨.locals, 0⟩) (by decide) (by rw [targets]; exact List.nil_subset _) late

/-- In user state the destination of a move is not raised to the high global registers. -/
lemma raised_of_allowed {status : Status} {dst : Operand} (user : status.s = false)
    (allowed : isPrivileged status dst = false) : dst.raised status.h = dst := by
  unfold isPrivileged at allowed
  rw [user, Bool.not_false, Bool.and_true] at allowed
  unfold Operand.raised
  rw [allowed]
  rfl

/-- A load writes its data registers, and the address register if it is advanced. -/
lemma load_isUser (form : DataForm) {address data : Operand} (step : Word)
    (addressField : address.code < 16) (dataField : data.code < 16) :
    (load form (.advancing address step) data).IsUser := by
  refine ⟨fun o target => ?_, nofun⟩
  obtain eq | rest := List.mem_cons.mp target
  · exact eq ▸ (Operand.isUser_of_field addressField).1
  · exact (isUser_of_pair (i := .load form (.offset data 0) data) dataField
      (form.targets_subset data) rfl).targets o rest

/-- A store at an advancing address writes its address register last. -/
lemma store_isUser (form : DataForm) {address : Operand} (data : Operand) (step : Word)
    (field : address.code < 16)
    (general : form = .word ∨ form = .double ∨ address.isPc = false ∧ address.isSr = false) :
    (store form (.advancing address step) data).IsUser := by
  have addressUser := (Operand.isUser_of_field field).1
  refine ⟨fun o target => List.mem_singleton.mp target ▸ addressUser, fun o late => ?_⟩
  obtain rfl | rfl | general := general
  · cases late
  · cases late
  · obtain ⟨_, _, _, ⟨⟩⟩ := late_eq late
    exact ⟨addressUser, general⟩

variable {o : Operation} {s : Status} {dst src : Operand} {i : Instruction}

/-- A move writes the register of its first field, raised by the high flag. -/
lemma Form.of_move (form : Form o s dst src i) (move : i.IsMove) :
    isPrivileged s dst = false ∧ i.targets = [dst.raised s.h] ∧ i.late = none := by
  cases move with
  | register => cases form with
    | move isMove allowed => exact ⟨allowed, rfl, rfl⟩
  | literal => cases form with
    | moveImmediate allowed value => exact ⟨allowed, rfl, rfl⟩

/-- Apart from the moves, every instruction is one of user code. -/
lemma Form.isUser (form : Form o s dst src i) (dstField : dst.code < 16) (srcField : src.code < 16)
    (notMove : ¬ i.IsMove) : i.IsUser := by
  cases form with
  | move => exact absurd (.register _ _) notMove
  | moveImmediate => exact absurd (.literal _ _) notMove
  | load form offset => exact isUser_of_pair srcField (form.targets_subset src) rfl
  | loadNext form step => exact load_isUser form step dstField srcField
  | storeNext form step general => exact store_isUser form src step dstField general
  | multiply kind => exact isUser_of_pair dstField (by cases kind <;> simp [targets]) rfl
  | accumulate function =>
    exact isUser_of_pair (o := ⟨.globals, Global.accHigh⟩) (by decide) (List.Subset.refl _) rfl
  | moveDouble | divide | shiftDouble => exact isUser_of_pair dstField (List.Subset.refl _) rfl
  | indexMove | mask | sum | add | sub | neg | addCarry | subCarry | round | logical | complement | shift
  | leadingZeros | rotate | set | reservedTransfer =>
    exact isUser_of_pair dstField (by simp [targets]) rfl
  | _ => exact isUser_of_nil rfl rfl

end Instruction

namespace Decode

variable {β : Type} [Bus β]

/-- The decoded instruction, if any, is one of user code. -/
def Confines (found : Option Instruction) : Prop := ∀ i, found = some i → i.IsUser

/-- What is decoded in user state is an instruction of user code. -/
lemma decode_isUser (address : Word) (word : Half) {status : Status} (user : status.s = false) :
    Finds Confines (Instruction.decode address word status : Decode β (Option Instruction)) := by
  obtain ⟨dstField, srcField⟩ := fields_lt word
  refine decode_finds address word status fun i form => ?_
  by_cases move : i.IsMove
  · obtain ⟨allowed, targets, late⟩ := form.of_move move
    rw [Instruction.raised_of_allowed user allowed] at targets
    exact Instruction.isUser_of_pair dstField (by rw [targets]; simp) late
  · exact form.isUser dstField srcField move

end Decode

/-! ## Control state -/

/-- Whether a global register is one of control: 17, or from 19 on. -/
def Global.IsControl (code : Nat) : Prop := code = 17 ∨ 19 ≤ code ∧ code < 32

namespace Registers

/-- No global register of control differs. -/
def SameControl (r r' : Registers) : Prop :=
  ∀ code, Global.IsControl code → r'.global code = r.global code

/-- Registers of control that do not differ twice do not differ. -/
lemma SameControl.trans {r r' r'' : Registers} (first : SameControl r r')
    (second : SameControl r' r'') : SameControl r r'' :=
  fun code control => (second code control).trans (first code control)

/-- The status register is none of control. -/
lemma sameControl_status (r : Registers) (s : Status) : SameControl r { r with status := s } := by
  intro code control
  refine global_setStatus r s ?_
  unfold Global.IsControl at control
  show code % 32 ≠ 1
  omega

/-- A write of a global register up to 16, or of the stack pointer, changes none of control. -/
lemma sameControl_setGlobal (r : Registers) {code : Nat} (value : Word)
    (open_ : code % 32 ≤ 16 ∨ code % 32 = Global.sp) : SameControl r (r.setGlobal code value) := by
  intro other control
  refine (global_setGlobal r code other value).trans (if_neg ?_)
  unfold Global.IsControl at control
  unfold Global.sp at open_
  omega

/-- The program counter is none of control. -/
lemma sameControl_setPc (r : Registers) (value : Word) : SameControl r (r.setPc value) :=
  r.sameControl_setGlobal _ (.inl (by decide))

/-- The stack pointer is none of control. -/
lemma sameControl_setSp (r : Registers) (value : Word) : SameControl r (r.setSp value) :=
  r.sameControl_setGlobal _ (.inr rfl)

end Registers

namespace Cpu

/-- The control state is the same: the global registers of control, the anchor of the trap table, and the
prescale and base of the timer. -/
structure Confined (c d : Cpu) : Prop where
  globals : Registers.SameControl c.regs d.regs
  entry : d.entry = c.entry
  scale : d.timer.scale = c.timer.scale
  period : d.timer.period = c.timer.period
  baseCycle : d.timer.baseCycle = c.timer.baseCycle
  baseValue : d.timer.baseValue = c.timer.baseValue

/-- What is confined twice in a row is confined. -/
lemma Confined.trans {c d e : Cpu} (first : Confined c d) (second : Confined d e) : Confined c e where
  globals := first.globals.trans second.globals
  entry := second.entry.trans first.entry
  scale := second.scale.trans first.scale
  period := second.period.trans first.period
  baseCycle := second.baseCycle.trans first.baseCycle
  baseValue := second.baseValue.trans first.baseValue

/-- Where timer and anchor stay, only the global registers matter. -/
lemma Confined.ofRegs {c d : Cpu} (globals : Registers.SameControl c.regs d.regs)
    (timer : d.timer = c.timer) (entry : d.entry = c.entry) : Confined c d :=
  ⟨globals, entry, by rw [timer], by rw [timer], by rw [timer], by rw [timer]⟩

/-- A processor is confined to itself. -/
lemma Confined.refl (c : Cpu) : Confined c c := .ofRegs (fun _ _ => rfl) rfl rfl

/-- Spending cycles changes no control state. -/
lemma Confined.spend {c d : Cpu} (confined : Confined c d) (n : Nat) : Confined c (d.spend n) :=
  confined.trans (.ofRegs (fun _ _ => rfl) rfl rfl)

/-- An entry leaves the control state alone. -/
lemma EntersFrame.confined {c d : Cpu} {e : Entry} (frame : EntersFrame c e d) (enters : Enters c d) :
    Confined c d := by
  refine .ofRegs (fun code control => frame.globals code ?_ ?_) ?_ ?_
  · unfold Global.IsControl at control
    show code % 32 ≠ 0
    omega
  · unfold Global.IsControl at control
    show code % 32 ≠ 1
    omega
  · obtain ⟨regs, lastPc, n, e', -, -, -, rfl⟩ := enters
    rfl
  · obtain ⟨regs, lastPc, n, e', -, -, -, rfl⟩ := enters
    rfl

/-- The registers up to 16 have no effect on timer and anchor. -/
lemma setGlobal_low (c : Cpu) {code : Nat} (low : code % 32 ≤ 16) (value : Word) :
    (c.setGlobal code value).timer = c.timer ∧ (c.setGlobal code value).entry = c.entry := by
  unfold setGlobal
  split
  case h_1 | h_2 | h_11 => exact ⟨rfl, rfl⟩
  all_goals omega

/-- A write of a register open to user code changes no control state. -/
lemma write_confined (c : Cpu) {o : Operand} (isUser : o.IsUser) (value : Word) :
    Confined c (c.write o value) := by
  obtain ⟨bank, code⟩ := o
  cases bank with
  | locals => exact .ofRegs (fun _ _ => rfl) rfl rfl
  | globals =>
    have small : code ≤ 16 := isUser rfl
    have low : code % 32 ≤ 16 := by omega
    obtain ⟨timer, entry⟩ := c.setGlobal_low low value
    refine .ofRegs ?_ timer entry
    show Registers.SameControl c.regs (c.setGlobal code value).regs
    obtain ⟨-, eq⟩ | ⟨-, eq | ⟨v, eq⟩⟩ := c.setGlobal_regs code value
    · rw [eq]
      exact c.regs.sameControl_status _
    · rw [eq]
      exact fun _ _ => rfl
    · rw [eq]
      exact c.regs.sameControl_setGlobal _ (.inl (by rwa [Nat.mod_mod]))

/-- No work of user code changes the control state. -/
lemma Work.confined {i : Instruction} {c d : Cpu} (isUser : i.IsUser) (work : Work i c d) :
    Confined c d := by
  cases work with
  | flags => exact .ofRegs (c.regs.sameControl_status _) rfl rfl
  | write target value => exact c.write_confined (isUser.targets _ target) value
  | spend | report | push | delay => exact .ofRegs (fun _ _ => rfl) rfl rfl
  | branch target => exact .ofRegs (c.regs.sameControl_setPc target) rfl rfl
  | call stacked target =>
    obtain ⟨locals, eq⟩ := fillFrame_changes stacked c _
    rw [eq]
    refine .ofRegs ?_ rfl rfl
    exact (c.regs.sameControl_status _).trans (Registers.sameControl_setPc _ target)
  | reframe => exact .ofRegs (c.regs.sameControl_status _) rfl rfl
  | spill sp => exact .ofRegs (c.regs.sameControl_setSp sp) rfl rfl
  | resume address saved =>
    refine .ofRegs ?_ rfl rfl
    exact (c.regs.sameControl_setPc address).trans (Registers.sameControl_status _ _)
  | refill sp slot value => exact .ofRegs (c.regs.sameControl_setSp sp) rfl rfl

/-- The work of an instruction of user code changes no control state. -/
lemma Worked.confined {i : Instruction} {c d : Cpu} (isUser : i.IsUser) (worked : Worked i c d) :
    Confined c d := by
  induction worked with
  | refl => exact .refl c
  | tail _ work ih => exact ih.trans (work.confined isUser)

/-! ## Supervisor state -/

/-- In supervisor state the processor is about to start a handler of a trap table, with interrupts
locked. -/
def Guarded (table : TrapEntry) (c : Cpu) : Prop :=
  c.status.s = true → c.status.l = true ∧ ∃ n < 64, c.regs.pc = table.vector n

/-- In user state there is no handler to start. -/
lemma guarded_of_user {c : Cpu} {table : TrapEntry} (user : c.status.s = false) :
    Guarded table c := fun supervisor => absurd supervisor (by rw [user]; decide)

/-- Spending cycles does not start or leave a handler. -/
lemma Guarded.spend {c : Cpu} {table : TrapEntry} (guarded : Guarded table c) (n : Nat) :
    Guarded table (c.spend n) := guarded

/-- A vector is an even address, and the number counts modulo 64. -/
lemma alignHalf_vector (table : TrapEntry) (number : Nat) :
    alignHalf (table.vector number) = table.vector (number % 64) := by
  have even : ∀ n < 64, alignHalf (table.vector n) = table.vector n := by
    cases table <;> decide +kernel
  have same : table.vector number = table.vector (number % 64) := by
    unfold TrapEntry.vector
    rw [Nat.mod_mod]
  rw [same]
  exact even _ (Nat.mod_lt _ (by decide))

/-- The entry of a handler through the trap table is confined and guarded. -/
lemma enterFrame_guarded (c : Cpu) (cause : EntryCause) (number : Nat) (length : BitVec 4) :
    Confined c (c.enterFrame cause (c.entry.vector number) length) ∧
      Guarded c.entry (c.enterFrame cause (c.entry.vector number) length) := by
  obtain ⟨e, frame, -, status, pc⟩ := c.enterFrame_frame cause (c.entry.vector number) length
  refine ⟨frame.confined (c.enterFrame_enters _ _ _), fun _ => ⟨by rw [status], number % 64, ?_, ?_⟩⟩
  · exact Nat.mod_lt _ (by decide)
  · rw [pc, alignHalf_vector]

/-- An exception changes no control state and starts a handler of the table. -/
lemma raise_guarded (c : Cpu) (exception : Exception) :
    Confined c (c.raise exception) ∧ Guarded c.entry (c.raise exception) :=
  c.enterFrame_guarded (.exception exception) exception.trapNumber 2

/-- An interrupt entry changes no control state and starts a handler of the table. -/
lemma enterInterrupt_guarded (c : Cpu) (source : InterruptSource) :
    Confined c (c.enterInterrupt source) ∧ Guarded c.entry (c.enterInterrupt source) :=
  c.enterFrame_guarded (.interrupt source) source.trapNumber 2

/-- The emulation of an instruction changes no control state and stays in the state of the program. -/
lemma enterEmulation_confined (c : Cpu) (byte : Byte) (dst src : Nat) :
    Confined c (c.enterEmulation byte dst src) ∧
      (c.enterEmulation byte dst src).status.s = c.status.s := by
  obtain ⟨e, frame, -, status, -⟩ := c.enterEmulation_frame byte dst src
  exact ⟨frame.confined (c.enterEmulation_enters _ _ _), by rw [status]; rfl⟩

/-- Only the work of a return changes the supervisor flag. -/
lemma Work.user {i : Instruction} {c d : Cpu} (notRet : ∀ src, i ≠ .ret src) (work : Work i c d) :
    d.status.s = c.status.s := by
  cases work with
  | @flags _ _ f keeps =>
    show (f c.status).s = c.status.s
    rw [keeps c.status]
  | @write _ _ o target value =>
    obtain eq | eq := c.write_status o value <;> rw [eq]
    rfl
  | branch target => rw [jump_status]
  | call stacked target =>
    obtain ⟨locals, eq⟩ := fillFrame_changes stacked c _
    rw [eq]
    exact (congrArg Status.s (jump_status _ target) :)
  | spill sp => exact congrArg Status.s (Registers.status_setGlobal _ _ _ (by decide))
  | resume | refill => exact absurd rfl (notRet _)
  | _ => rfl

/-- Only a return changes between user and supervisor state while an instruction works. -/
lemma Worked.user {i : Instruction} {c d : Cpu} (notRet : ∀ src, i ≠ .ret src)
    (worked : Worked i c d) : d.status.s = c.status.s := by
  induction worked with
  | refl => rfl
  | tail _ work ih => exact (work.user notRet).trans ih

/-- Registers other than the program counter and the status register can be written in a handler. -/
lemma Guarded.write {c : Cpu} {table : TrapEntry} {o : Operand} (guarded : Guarded table c)
    (isUser : o.IsUser) (notPc : o.isPc = false) (notSr : o.isSr = false) (value : Word) :
    Guarded table (c.write o value) := by
  obtain ⟨bank, code⟩ := o
  cases bank with
  | locals => exact guarded
  | globals =>
    have small : code ≤ 16 := isUser rfl
    have aboveSr : code ≠ 0 ∧ code ≠ 1 := by
      simpa [Operand.isPc, Operand.isSr] using And.intro notPc notSr
    show Guarded table (c.setGlobal code value)
    obtain ⟨isSr, -⟩ | ⟨-, eq | ⟨v, eq⟩⟩ := c.setGlobal_regs code value
    · unfold Global.sr at isSr
      omega
    · unfold Guarded Cpu.status
      rw [eq]
      exact guarded
    · unfold Guarded Cpu.status
      rw [eq, Registers.status_setGlobal _ _ _ (by show code % 32 % 32 ≠ 1; omega)]
      have pc : (c.regs.setGlobal (code % 32) v).pc = c.regs.pc :=
        (Registers.global_setGlobal _ _ _ _).trans (if_neg (by show ¬ code % 32 % 32 = 0; omega))
      rw [pc]
      exact guarded

/-- The end of an instruction of user code is confined and guarded. -/
lemma Ends.guarded {i : Instruction} {c d : Cpu} (isUser : i.IsUser) (user : c.status.s = false)
    (ends : Ends i c d) : Confined c d ∧ Guarded c.entry d := by
  cases ends with
  | done => exact ⟨.refl c, guarded_of_user user⟩
  | @enters d enters n =>
    have entered : Confined c d ∧ Guarded c.entry d := by
      cases enters with
      | trap => exact c.enterFrame_guarded _ _ _
      | emulation =>
        obtain ⟨confined, same⟩ := c.enterEmulation_confined _ _ _
        exact ⟨confined, guarded_of_user (same.trans user)⟩
      | exception => exact c.enterFrame_guarded _ _ _
    exact ⟨entered.1.spend n, entered.2.spend n⟩
  | advances late value =>
    obtain ⟨confined, guarded⟩ := c.raise_guarded .range
    obtain ⟨address, notPc, notSr⟩ := isUser.late _ late
    exact ⟨confined.trans (write_confined _ address value), guarded.write address notPc notSr value⟩

/-- A change of the status register that leaves mode and lock alone keeps the guard. -/
lemma Guarded.modifyStatus {c : Cpu} {table : TrapEntry} (guarded : Guarded table c)
    {f : Status → Status} (mode : (f c.status).s = c.status.s) (lock : (f c.status).l = c.status.l) :
    Guarded table (c.modifyStatus f) := by
  intro supervisor
  obtain ⟨locked, n, small, pc⟩ := guarded (mode.symm.trans supervisor)
  exact ⟨lock.trans locked, n, small, (Registers.global_setStatus _ _ (by decide)).trans pc⟩

/-- What comes after an instruction is confined and guarded. -/
lemma finish_guarded (c : Cpu) (wasHigh : Bool) (guarded : Guarded c.entry c) :
    Confined c (c.finish wasHigh) ∧ Guarded c.entry (c.finish wasHigh) := by
  obtain ⟨d, eq, finished⟩ := c.finish_cases wasHigh
  obtain ⟨confined, still⟩ : Confined c d ∧ Guarded c.entry d := by
    rw [eq]
    refine ⟨.ofRegs (c.regs.sameControl_status _) rfl rfl, ?_⟩
    exact (guarded.modifyStatus rfl rfl).modifyStatus rfl rfl
  have retired (e : Cpu) : Confined e e.retire := .ofRegs (fun _ _ => rfl) rfl rfl
  obtain run | ⟨-, -, run⟩ := finished
  · rw [run]
    exact ⟨confined.trans (retired d), still⟩
  · obtain ⟨raised, enters⟩ := d.raise_guarded .trace
    rw [confined.entry] at enters
    rw [run]
    exact ⟨(confined.trans raised).trans (retired _), enters⟩

/-- Taking an interrupt changes no control state and starts a handler of the table. -/
lemma takeInterrupt_guarded (c : Cpu) (source : InterruptSource) :
    Confined c (c.takeInterrupt source) ∧ Guarded c.entry (c.takeInterrupt source) := by
  cases source with
  | timer =>
    obtain ⟨confined, guarded⟩ := enterInterrupt_guarded
      { c with timer := { c.timer with pending := false } } .timer
    have served : Confined c { c with timer := { c.timer with pending := false } } :=
      ⟨fun _ _ => rfl, rfl, rfl, rfl, rfl, rfl⟩
    exact ⟨served.trans confined, guarded⟩
  | line line => exact c.enterInterrupt_guarded (.line line)

end Cpu

namespace Machine

variable {β : Type} [Bus β]

/-- A fetch moves the program counter, which changes neither control state nor the status register. -/
lemma fetchNext_confined (m : Machine β) : Cpu.Confined m.cpu (fetchNext.run m).2.cpu ∧
    (fetchNext.run m).2.cpu.status = m.cpu.status := by
  have status (r : Registers) (value : Word) : (r.setPc value).status = r.status :=
    Registers.status_setGlobal _ _ _ (by decide)
  have passed (cursor : Cursor) : Cpu.Confined m.cpu (m.cpu.begin.continueAt cursor) ∧
      (m.cpu.begin.continueAt cursor).status = m.cpu.status := by
    refine ⟨.ofRegs ?_ rfl rfl, (status _ _).trans (status _ _)⟩
    exact (Registers.sameControl_setPc _ _).trans (Registers.sameControl_setPc _ _)
  have followed (c : Cpu) : Cpu.Confined c c.redirect ∧ c.redirect.status = c.status := by
    rw [Cpu.redirect_eq]
    cases c.delay.target with
    | none => exact ⟨.ofRegs (fun _ _ => rfl) rfl rfl, rfl⟩
    | some target => exact ⟨.ofRegs (c.regs.sameControl_setPc target) rfl rfl, status _ _⟩
  obtain ⟨fault, cursor, bus, run⟩ | ⟨i, cursor, bus, run⟩ := m.fetchNext_cases
  · rw [run]
    exact passed cursor
  · rw [run]
    dsimp only
    split
    · exact ⟨(passed cursor).1.trans (followed _).1, (followed _).2.trans (passed cursor).2⟩
    · exact passed cursor

/-- An instruction of user code is confined and guarded, whatever the bus answers. -/
lemma execute_guarded (m : Machine β) {i : Instruction} (isUser : i.IsUser)
    (user : m.cpu.status.s = false) : Cpu.Confined m.cpu ((execute i).run m).2.cpu ∧
      Cpu.Guarded m.cpu.entry ((execute i).run m).2.cpu := by
  by_cases returns : ∃ src, i = .ret src
  · obtain ⟨src, rfl⟩ := returns
    obtain ⟨c, worked, -, run⟩ := m.ret_cpu src
    have confined := worked.confined isUser
    show Cpu.Confined m.cpu ((ret src).run m).2.cpu ∧ Cpu.Guarded _ ((ret src).run m).2.cpu
    rw [run]
    -- A return that sets the supervisor flag breaks privilege.
    cases breaks : Cpu.breaksPrivilege m.cpu.status c.status with
    | true =>
      obtain ⟨raised, guarded⟩ := c.raise_guarded .privilege
      rw [confined.entry] at guarded
      exact ⟨(confined.trans raised).spend _, guarded.spend _⟩
    | false =>
      refine ⟨confined.spend _, Cpu.guarded_of_user ?_⟩
      unfold Cpu.breaksPrivilege at breaks
      rw [user] at breaks
      exact (Bool.or_eq_false_iff.mp breaks).1
  · have notRet (src : Operand) (eq : i = .ret src) : False := returns ⟨src, eq⟩
    obtain ⟨c, worked, ends⟩ := m.execute_outcome i
    have confined := worked.confined isUser
    obtain ⟨ended, guarded⟩ := ends.guarded isUser ((worked.user notRet).trans user)
    rw [confined.entry] at guarded
    exact ⟨confined.trans ended, guarded⟩

/-- Looking for interrupts after an instruction is confined and guarded. -/
lemma complete_guarded (m : Machine β) (wasHigh : Bool) (guarded : Cpu.Guarded m.cpu.entry m.cpu) :
    Cpu.Confined m.cpu ((complete wasHigh).run m).2.cpu ∧
      Cpu.Guarded m.cpu.entry ((complete wasHigh).run m).2.cpu := by
  obtain ⟨confined, finished⟩ := m.cpu.finish_guarded wasHigh guarded
  obtain run | ⟨source, -, run⟩ := complete_cpu wasHigh m
  · rw [run]
    exact ⟨confined, finished⟩
  · rw [run]
    obtain ⟨taken, guarded⟩ := (m.cpu.finish wasHigh).takeInterrupt_guarded source
    rw [confined.entry] at guarded
    exact ⟨confined.trans taken, guarded⟩

/-- User code is confined: an instruction cycle from user state changes no control state, and it ends in
supervisor state only at a vector of the trap table and with interrupts locked. -/
theorem user_confined (m : Machine β) (user : m.cpu.status.s = false) :
    let after := (executeOne.run m).2.cpu
    Cpu.Confined m.cpu after ∧
      (after.status.s = true →
        after.status.l = true ∧ ∃ n < 64, after.regs.pc = m.cpu.entry.vector n) := by
  intro after
  show Cpu.Confined m.cpu after ∧ Cpu.Guarded m.cpu.entry after
  obtain ⟨fetching, same⟩ := m.fetchNext_confined
  -- A fault stops in user state. An instruction is confined by what decoding lets user code name.
  obtain ⟨fault, c, fetched, stopped⟩ | ⟨i, c, fetched, completed⟩ := m.executeOne_cases
  · rw [fetched] at fetching same
    have ended : after = c.cpu.stop fault := congrArg (fun r => r.2.cpu) stopped
    rw [ended]
    refine ⟨fetching.trans (.ofRegs (fun _ _ => rfl) rfl rfl), Cpu.guarded_of_user ?_⟩
    exact (congrArg Status.s same).trans user
  · have isUser : i.IsUser := m.fetchNext_finds (Decode.decode_isUser _ _ user)
      (by rw [fetched]) i rfl
    rw [fetched] at fetching same
    obtain ⟨executing, guarded⟩ := c.execute_guarded isUser ((congrArg Status.s same).trans user)
    have sofar := fetching.trans executing
    rw [← executing.entry] at guarded
    obtain ⟨completing, final⟩ := ((execute i).run c).2.complete_guarded m.cpu.status.h guarded
    rw [sofar.entry] at final
    have ended : after = _ := congrArg (fun r => r.2.cpu) completed
    rw [ended]
    exact ⟨sofar.trans completing, final⟩

/-- A machine in user state that is about to move into a high global register. -/
def userMove : Machine (DeviceBus FlatMemory) :=
  let m := (powerOn Variant.e132t.config (({} : FlatMemory).loadHalves 0x1000 [0x6451])).session
    [.host .reset, .host (.setGlobal Global.pc 0x1000)]
  ⟨m.cpu.modifyStatus fun s => { s with s := false, l := false, h := true }, m.bus⟩

/-- The move raises a privilege error, and the handler starts at its vector. -/
theorem userMove_confined :
    userMove.cpu.status.s = false ∧ (executeOne.run userMove).2.cpu.status.s = true ∧
      (executeOne.run userMove).2.cpu.status.l = true ∧
      (executeOne.run userMove).2.cpu.regs.global Global.tpr = Cpu.resetPrescaler := by
  have user : userMove.cpu.status.s = false := by decide +kernel
  have entered : (executeOne.run userMove).2.cpu.status.s = true := by decide +kernel
  have start : userMove.cpu.regs.global Global.tpr = Cpu.resetPrescaler := by decide +kernel
  obtain ⟨confined, guarded⟩ := user_confined userMove user
  refine ⟨user, entered, (guarded entered).1, ?_⟩
  exact (confined.globals Global.tpr (.inr (by decide))).trans start

end Machine

end E1Machine
