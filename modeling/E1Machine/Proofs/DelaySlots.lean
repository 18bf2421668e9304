import E1Machine.Bus.Flat
import E1Machine.Proofs.Alignment
import E1Machine.Proofs.HighFlag
import E1Machine.Proofs.Returning

/-!
# Delay slots

The instruction after a taken delayed branch stands in its delay slot. Its halfwords are still fetched in a
row from the program counter. Then the branch is followed, and all else that the instruction does happens at
the target: a branch is relative to it, a delayed branch leaves a target relative to it, and a call or the
entry into a handler stacks it as return address.

Main statement: `Machine.delay_slot`, what every instruction does in a delay slot that is not reserved and has
a meaning.
-/

namespace E1Machine

/-! ## Even addresses -/

/-- An even address is not rounded. -/
lemma alignHalf_of_even {w : Word} (even : w.toNat % 2 = 0) : alignHalf w = w := by
  apply BitVec.eq_of_toNat_eq
  rw [toNat_alignHalf]
  omega

/-- An even address and an even offset have an even sum. -/
lemma even_add {a b : Word} (ha : a.toNat % 2 = 0) (hb : b.toNat % 2 = 0) :
    (a + b).toNat % 2 = 0 := by
  bv_omega

/-! ## Where an instruction is fetched -/

namespace Decode

variable {α β : Type} [Bus β]

/-- The bus after so many halfwords are fetched in a row. -/
def fetchRow : Nat → Word → β → β
  | 0, _, b => b
  | n + 1, addr, b => fetchRow n (addr + 2) ((Bus.fetch addr).run b).2

/-- A decoder that fetches so many halfwords at most, in a row from its place in the instruction stream. -/
def InRow (most : Nat) (x : Decode β α) : Prop :=
  ∀ cursor b, ∃ n ≤ most, ((x.run cursor).run b).2 = fetchRow n cursor.pc b

/-- A decoder that is in step with another fetches in a row. -/
lemma InStep.inRow {most : Nat} {x y : Decode β α} (steps : InStep most x y) : InRow most x := by
  induction steps with
  | done a move ahead => exact fun cursor b => ⟨0, Nat.zero_le _, rfl⟩
  | next rest ih =>
    intro cursor b
    obtain ⟨n, few, eq⟩ := ih ((Bus.fetch cursor.pc).run b).1 { cursor with pc := cursor.pc + 2 }
      ((Bus.fetch cursor.pc).run b).2
    exact ⟨n + 1, Nat.succ_le_succ few, eq⟩

/-- Decoding fetches two halfwords at most after the instruction word, in a row. -/
lemma decode_inRow (address : Word) (word : Half) (status : Status) :
    InRow 2 (Instruction.decode address word status : Decode β (Option Instruction)) :=
  (decode_inStep address word status).inRow

end Decode

/-! ## The program counter while an instruction works -/

/-- Whether an operand is the program counter. -/
def Operand.IsCounter (o : Operand) : Prop := o.bank = .globals ∧ o.code % 32 = Global.pc

namespace Instruction

/-- Whether an instruction writes the program counter as one of its registers. -/
def WritesCounter (i : Instruction) : Prop := ∃ o ∈ i.targets, o.IsCounter

/-- Whether an instruction jumps when it does its work. -/
def jumps : Instruction → Bool
  | branch _ | call _ _ _ | ret _ => true
  | _ => false

end Instruction

namespace Cpu

/-- A write of another operand leaves the program counter alone. -/
lemma write_pc (c : Cpu) {o : Operand} (other : ¬ o.IsCounter) (value : Word) :
    (c.write o value).regs.pc = c.regs.pc :=
  c.write_others (fun isGlobal named => other ⟨isGlobal, named⟩) (by decide)

/-- The program counter stands still while an instruction works that neither jumps nor writes it. -/
lemma Work.pc {i : Instruction} {c d : Cpu} (work : Work i c d) (stays : i.jumps = false)
    (other : ¬ i.WritesCounter) : d.regs.pc = c.regs.pc := by
  cases work with
  | flags keeps => exact Registers.global_setStatus _ _ (by decide)
  | write target value => exact c.write_pc (fun counter => other ⟨_, target, counter⟩) value
  | spend | report | delay | push => rfl
  | reframe => exact Registers.global_setStatus _ _ (by decide)
  | spill sp => exact (Registers.global_setGlobal ..).trans (if_neg (by decide))
  | branch | call | resume | refill => cases stays

/-- All the work of such an instruction leaves the program counter alone. -/
lemma Worked.pc {i : Instruction} {c d : Cpu} (worked : Worked i c d) (stays : i.jumps = false)
    (other : ¬ i.WritesCounter) : d.regs.pc = c.regs.pc := by
  induction worked with
  | refl => rfl
  | tail _ work ih => exact (work.pc stays other).trans ih

/-! ## What is stacked -/

/-- The word that is stacked to return to an address: bit 0 is the supervisor flag. -/
def returnTo (address : Word) (supervisor : Bool) : Word :=
  address.extractLsb' 1 31 ++ BitVec.ofBool supervisor

/-- The return address comes before the status register, which is stacked last. -/
lemma stackedBy_returnPc (c : Cpu) (i : Instruction) :
    (c.stackedBy i).dropLast.getLastD 0 = c.returnPc := by
  cases i with
  | _ => rfl

/-- A trap whose condition holds enters its handler. -/
lemma trap_taken (c : Cpu) (number : Nat) {condition : Option Condition}
    (holds : condition.any (·.holds c.status) = true) :
    ∃ e : Entry, e.cause = .trap number ∧ (c.trap number condition).entries = c.entries.push e := by
  have charged (d : Cpu) : (d.charge .controlTransfer).entries = d.entries := rfl
  unfold trap
  rw [if_pos holds, charged]
  exact c.enterFrame_cause (.trap number) (c.entry.vector number) 6

/-- An instruction that enters no handler ends when its work is done. -/
lemma Ends.eq_of_quiet {i : Instruction} {c d : Cpu} (ends : Ends i c d)
    (quiet : d.entries = c.entries) : d = c := by
  cases ends with
  | done => rfl
  | enters enters n =>
    obtain ⟨e, enters, -⟩ := enters.frame
    exact absurd (enters.entries.symm.trans quiet) (push_ne _ _)
  | advances late value =>
    obtain ⟨e, enters, -⟩ := c.raise_frame .range
    rw [write_entries, enters.entries] at quiet
    exact absurd quiet (push_ne _ _)

/-- An instruction that jumps enters no handler, unless it is a return. -/
lemma Outcome.entries_of_jumps {i : Instruction} {c d : Cpu} (outcome : Outcome i c d)
    (jumps : i.jumps = true) (notRet : ∀ src, i ≠ .ret src) : d.entries = c.entries := by
  obtain ⟨e, worked, ends⟩ := outcome
  cases i with
  | branch | call =>
    cases ends with
    | done => exact worked.entries_eq
    | enters enters n =>
      cases enters with
      | exception raises => cases raises
    | advances late value => cases late
  | ret src => exact absurd rfl (notRet src)
  | _ => cases jumps

end Cpu

/-- The return address of an entry. -/
def Entry.returnAddress (e : Entry) : Word := e.stacked.dropLast.getLastD 0

/-- The code of the local register in which the handler of an entry finds the return address. -/
def Entry.returnCode (e : Entry) : Nat := e.stacked.length - 2

namespace Cpu.LeavesFrame

variable {i : Instruction} {c after : Cpu} {e : Entry} (leaves : LeavesFrame i c e after)
include leaves

/-- The entry is noted. -/
lemma entries : after.entries = c.entries.push e := by
  obtain ⟨d, makes, -⟩ := leaves
  exact makes.entries

/-- The handler finds the return address in its register. -/
lemma read_returnAddress (kept : ¬ c.Overwrites i) : after.read ⟨.locals, e.returnCode⟩ = e.returnAddress := by
  obtain ⟨d, makes, -⟩ := id leaves
  refine leaves.read kept ?_
  unfold Entry.returnCode Entry.returnAddress
  rw [makes.stacked]
  cases i with
  | _ => rfl

end Cpu.LeavesFrame

/-- Two operations are known by the way in which they pass control on. -/
lemma Operation.eq_of_control {operation known : Operation} {status : Status}
    (named : known = .reserved ∨ known = .software)
    (same : operation.control status = known.control status) : operation = known := by
  cases operation with
  | reserved | software =>
    obtain rfl | rfl := named
    all_goals first | rfl | cases same
  | delayedBranch condition | branch condition =>
    obtain rfl | rfl := named
    all_goals cases holds : condition.holds status <;> simp [control, holds] at same
  | _ =>
    obtain rfl | rfl := named
    all_goals cases same

/-- Only a reserved instruction leaves a pending target unfollowed. -/
lemma Instruction.eq_reserved {i : Instruction} (reserved : i.redirects = false) :
    i.control = .reserved := by
  cases i with
  | reserved => rfl
  | _ => cases reserved

namespace Machine

variable {β : Type} [Bus β]

/-- The operation that is to be executed next. -/
def operation (m : Machine β) : Operation :=
  (Encoding.ofWord ((Bus.fetch m.cpu.regs.pc).run m.bus).1).operation

/-- What instruction `i` does in the delay slot of a branch to `target`. It is about to run on `m` and has been
fetched in `c`. In `done` it has been executed, and what comes after every instruction is still to come. The return
address of an entry is the one that is stacked and, unless the instruction writes over it, the one that the handler
finds in its register. -/
structure InSlot (target : Word) (i : Instruction) (m c done : Machine β) : Prop where
  row : ∃ n ≤ 2, c.bus = Decode.fetchRow n (alignHalf (m.cpu.regs.pc + 2))
    ((Bus.fetch m.cpu.regs.pc).run m.bus).2
  redirected : c.cpu.regs.pc = target ∧ c.cpu.delay.target = none
  control : i.control = m.operation.control m.cpu.status
  delayed {offset : Word} (delays : i = .delayedBranch offset) :
    done.cpu.regs.pc = target ∧ done.cpu.delay.target = some (target + offset)
  idle (other : i.control ≠ .delayedBranch) : done.cpu.delay.target = none
  branch {offset : Word} (branches : i = .branch offset) : done.cpu.regs.pc = target + offset
  onward (stays : i.jumps = false) (other : ¬ i.WritesCounter) (quiet : entered m done = []) :
    done.cpu.regs.pc = target
  call {code : Nat} {src : Operand} {addend : Word} (calls : i = .call code src addend) :
    done.cpu.read ⟨.locals, 0⟩ = Cpu.returnTo target m.cpu.status.s
  trap {number : Nat} {condition : Condition} (traps : i = .trap number (some condition))
    (holds : condition.holds m.cpu.status = true) :
    ∃ e, entered m done = [e] ∧ e.cause = .trap number
  emulation {byte : Byte} {dst src : Nat} (emulates : i = .emulate byte dst src) :
    ∃ e, entered m done = [e] ∧ e.cause = .emulation byte
  entry {e : Entry} (enters : e ∈ entered m done) (notRet : ∀ src, i ≠ .ret src)
    (other : ¬ i.WritesCounter) :
    entered m done = [e] ∧ e.returnAddress = Cpu.returnTo target m.cpu.status.s
  frame {e : Entry} (enters : e ∈ entered m done) : Cpu.LeavesFrame i c.cpu e done.cpu
  found {e : Entry} (enters : e ∈ entered m done) (notRet : ∀ src, i ≠ .ret src) (other : ¬ i.WritesCounter)
    (kept : ¬ c.cpu.Overwrites i) :
    done.cpu.read ⟨.locals, e.returnCode⟩ = Cpu.returnTo target m.cpu.status.s

/-- An instruction with a meaning is fetched: it is what decoding finds, and it fits the operation. -/
lemma fetchNext_meaningful (m : Machine β) (meaningful : m.operation ≠ .unimplemented) :
    ∃ i cursor bus,
      ((Instruction.decode m.cpu.regs.pc ((Bus.fetch m.cpu.regs.pc).run m.bus).1 m.cpu.status).run
        { pc := alignHalf (m.cpu.regs.pc + 2) }).run ((Bus.fetch m.cpu.regs.pc).run m.bus).2 =
          ((some i, cursor), bus) ∧
      fetchNext.run m = (.ok i, ⟨if i.redirects then (m.cpu.begin.continueAt cursor).redirect
        else m.cpu.begin.continueAt cursor, bus⟩) ∧
      ∃ dst src, i.Fits m.operation m.cpu.status dst src := by
  obtain ⟨found, cursor, bus, decoded, fetch⟩ := m.fetchNext_decodes
  have fits := Decode.decode_fits m.cpu.regs.pc ((Bus.fetch m.cpu.regs.pc).run m.bus).1 m.cpu.status
    { pc := m.cpu.begin.regs.pc } ((Bus.fetch m.cpu.regs.pc).run m.bus).2
  have start : m.cpu.begin.regs.pc = alignHalf (m.cpu.regs.pc + 2) := Registers.pc_setPc _ _
  rw [decoded] at fits
  rw [start] at decoded
  cases found with
  | none => exact absurd fits meaningful
  | some i =>
    exact ⟨i, cursor, bus, decoded, fetch.trans (redirect_run i _), _, _, fits⟩

/-- What is fetched in a delay slot. -/
lemma fetchNext_slot (m : Machine β) (known : m.operation ≠ .reserved)
    (meaningful : m.operation ≠ .unimplemented) :
    ∃ i cursor bus, fetchNext.run m = (.ok i, ⟨(m.cpu.begin.continueAt cursor).redirect, bus⟩) ∧
      (∃ dst src, i.Fits m.operation m.cpu.status dst src) ∧
      ∃ n ≤ 2, bus = Decode.fetchRow n (alignHalf (m.cpu.regs.pc + 2))
        ((Bus.fetch m.cpu.regs.pc).run m.bus).2 := by
  obtain ⟨i, cursor, bus, decoded, fetch, dst, src, fits⟩ := m.fetchNext_meaningful meaningful
  obtain ⟨n, few, row⟩ := Decode.decode_inRow m.cpu.regs.pc ((Bus.fetch m.cpu.regs.pc).run m.bus).1
    m.cpu.status { pc := alignHalf (m.cpu.regs.pc + 2) } ((Bus.fetch m.cpu.regs.pc).run m.bus).2
  rw [decoded] at row
  have redirects : i.redirects = true := by
    by_contra stays
    have reserved := Instruction.eq_reserved (Bool.eq_false_iff.mpr stays)
    exact known (Operation.eq_of_control (.inl rfl) (fits.control.symm.trans reserved))
  rw [redirects, if_pos rfl] at fetch
  exact ⟨i, cursor, bus, fetch, ⟨dst, src, fits⟩, n, few, row⟩

/-- An instruction makes one entry at most, and leaves its frame. -/
lemma execute_entered {m c : Machine β} {i : Instruction} (entries : c.cpu.entries = m.cpu.entries) {e : Entry}
    (enters : e ∈ entered m ((execute i).run c).2) :
    entered m ((execute i).run c).2 = [e] ∧ Cpu.LeavesFrame i c.cpu e ((execute i).run c).2.cpu := by
  obtain quiet | ⟨e', leaves⟩ := c.execute_leavesFrame i
  · rw [entered_none (quiet.trans entries)] at enters
    cases enters
  · have one := entered_push (m := m) (leaves.entries.trans (by rw [entries]))
    rw [one] at enters ⊢
    cases List.mem_singleton.mp enters
    exact ⟨rfl, leaves⟩

/-- The return address of an entry is where the instruction executes, unless it moves there itself. -/
lemma execute_returnAddress (c : Machine β) {i : Instruction} (notRet : ∀ src, i ≠ .ret src)
    (other : ¬ i.WritesCounter) {e : Entry} (leaves : Cpu.LeavesFrame i c.cpu e ((execute i).run c).2.cpu) :
    e.returnAddress = Cpu.returnTo c.cpu.regs.pc c.cpu.status.s := by
  cases jumps : i.jumps with
  | true =>
    have quiet := (c.execute_outcome i).entries_of_jumps jumps notRet
    exact absurd (leaves.entries.symm.trans quiet) (Cpu.push_ne _ _)
  | false =>
    obtain ⟨d, makes, -⟩ := leaves
    unfold Entry.returnAddress
    rw [makes.stacked, d.stackedBy_returnPc, ← makes.worked.pc jumps other, ← makes.worked.user notRet]
    rfl

/-- An instruction that neither jumps nor enters a handler leaves the program counter where it stands. -/
lemma execute_pc (c : Machine β) {i : Instruction} (stays : i.jumps = false)
    (other : ¬ i.WritesCounter) (quiet : ((execute i).run c).2.cpu.entries = c.cpu.entries) :
    ((execute i).run c).2.cpu.regs.pc = c.cpu.regs.pc := by
  obtain ⟨d, worked, ends⟩ := c.execute_outcome i
  rw [ends.eq_of_quiet (quiet.trans (Cpu.Worked.entries_eq worked).symm)]
  exact Cpu.Worked.pc worked stays other

/-- What is executed in a delay slot once it is fetched. -/
lemma execute_slot {m c : Machine β} {target : Word} {i : Instruction} {dst src : Operand}
    (fits : i.Fits m.operation m.cpu.status dst src) (even : target.toNat % 2 = 0)
    (entries : c.cpu.entries = m.cpu.entries) (status : c.cpu.status = m.cpu.status)
    (pc : c.cpu.regs.pc = target) (idle : c.cpu.delay.target = none)
    (row : ∃ n ≤ 2, c.bus = Decode.fetchRow n (alignHalf (m.cpu.regs.pc + 2))
      ((Bus.fetch m.cpu.regs.pc).run m.bus).2) :
    InSlot target i m c ((execute i).run c).2 where
  row := row
  redirected := ⟨pc, idle⟩
  control := fits.control
  delayed {offset} delays := by
    rw [delays]
    refine ⟨pc, ?_⟩
    show some (c.cpu.regs.pc + offset) = _
    rw [pc]
  -- Only a delayed branch leaves a target.
  idle other := by
    have delays : i.delays = false := by
      cases i with
      | delayedBranch => exact absurd rfl other
      | _ => rfl
    exact ((Cpu.followed_invariant _).execute i (by rw [delays]; exact nofun)
      ⟨idle, [], (List.append_nil _).symm, nofun⟩).1
  branch {offset} branches := by
    have form := fits.form
    rw [branches] at form ⊢
    have sum := even_add even form.even_of_branch
    show ((c.cpu.jump (c.cpu.regs.pc + offset)).modifyStatus _).regs.pc = _
    rw [pc]
    refine (Registers.global_setStatus _ _ (by decide)).trans ?_
    exact (Registers.pc_setPc _ _).trans (alignHalf_of_even sum)
  onward stays other quiet := by
    -- An instruction that neither jumps nor enters leaves the program counter at the target.
    obtain still | ⟨e, leaves⟩ := c.execute_leavesFrame i
    · exact (c.execute_pc stays other still).trans pc
    · rw [entered_push (leaves.entries.trans (by rw [entries]))] at quiet
      cases quiet
  call {code src addend} calls := by
    rw [calls]
    refine (c.cpu.call_returnable code src addend).address.trans ?_
    rw [← pc, ← status]
    rfl
  trap {number condition} traps holds := by
    have taken : (some condition).any (·.holds c.cpu.status) = true := by
      rw [status]
      exact holds
    obtain ⟨e, cause, pushed⟩ := c.cpu.trap_taken number taken
    refine ⟨e, entered_push ?_, cause⟩
    rw [traps, ← entries]
    exact pushed
  emulation {byte dst src} emulates := by
    obtain ⟨e, cause, pushed⟩ := c.cpu.enterEmulation_cause byte dst src
    refine ⟨e, entered_push ?_, cause⟩
    rw [emulates, ← entries]
    exact pushed
  entry {e} enters notRet other := by
    obtain ⟨one, leaves⟩ := execute_entered entries enters
    refine ⟨one, (c.execute_returnAddress notRet other leaves).trans ?_⟩
    rw [pc, status]
  frame {e} enters := (execute_entered entries enters).2
  -- The log says what was stacked, and the frame is as it was left.
  found {e} enters notRet other kept := by
    have leaves := (execute_entered entries enters).2
    refine (leaves.read_returnAddress kept).trans ((c.execute_returnAddress notRet other leaves).trans ?_)
    rw [pc, status]

/-! ## Targets are even -/

/-- The target that an instruction leaves pending: none, the one that it found, or its own. -/
lemma execute_target {m c : Machine β} {i : Instruction} (fetched : fetchNext.run m = (.ok i, c)) :
    let done := ((execute i).run c).2
    done.cpu.delay.target = none ∨ done.cpu.delay = m.cpu.delay ∨
      ∃ offset, i = .delayedBranch offset ∧
        done.cpu.delay.target = some (c.cpu.regs.pc + offset) := by
  obtain ⟨cursor, bus, rfl⟩ := m.fetchNext_ok fetched
  obtain ⟨offset, rfl⟩ | ⟨report, rfl⟩ | ⟨redirects, delays⟩ := i.delay_cases
  · exact .inr (.inr ⟨offset, rfl, rfl⟩)
  · exact .inr (.inl rfl)
  · exact .inl (m.execute_followed redirects delays cursor bus).1

/-- The tasks after an instruction neither follow nor leave a delayed branch. -/
lemma complete_delay (wasHigh : Bool) (m : Machine β) :
    ((complete wasHigh).run m).2.cpu.delay = m.cpu.delay := by
  have finished := (m.cpu.finish_entries wasHigh).1
  rw [complete_run]
  split
  · exact (checkInterrupts_entries _).1.trans finished
  · exact finished

/-- The target of a delayed branch that is pending is even. -/
def EvenTarget (m : Machine β) : Prop :=
  ∀ target, m.cpu.delay.target = some target → target.toNat % 2 = 0

/-- All requests keep the bus in some state. -/
lemma serves_true : Serves (fun _ : β => True) := by
  constructor <;> intros <;> trivial

/-- A move leaves an even target if it finds one. -/
lemma move_evenTarget {m : Machine β} (first : Move) (served : m.Served fun _ => True)
    (even : m.EvenTarget) : (m.move first).EvenTarget := by
  have kept {d : Machine β} (same : d.cpu.delay = m.cpu.delay) : d.EvenTarget := by
    unfold EvenTarget
    rw [same]
    exact even
  cases first with
  | host action =>
    obtain ⟨-, forgotten | ⟨same, -⟩⟩ := action.act_changes m.cpu
    · intro target pending
      cases (congrArg (·.target) forgotten).symm.trans pending
    · exact kept same
  | openSlice budget => exact kept (checkInterrupts_entries ⟨m.cpu.openSlice budget, m.bus⟩).1
  | closeSlice => exact kept rfl
  | instruction =>
    have next := fetchNext_served serves_true served
    -- A fault leaves the target as it is, since nothing is redirected before it.
    obtain ⟨fault, c, fetched, stopped⟩ | ⟨i, c, fetched, completed⟩ := m.executeOne_cases
    · refine kept ((congrArg (fun r => r.2.cpu.delay) stopped).trans ?_)
      obtain ⟨fault', cursor, bus, fetch⟩ | ⟨i, cursor, bus, fetch⟩ := m.fetchNext_cases
      · cases fetched.symm.trans fetch
        rfl
      · cases fetched.symm.trans fetch
    · rw [fetched] at next
      have left : (m.move .instruction).cpu.delay = ((execute i).run c).2.cpu.delay :=
        (congrArg (fun r => r.2.cpu.delay) completed).trans (complete_delay _ _)
      obtain none | same | ⟨offset, rfl, armed⟩ := execute_target fetched
      · intro target pending
        rw [left, none] at pending
        cases pending
      · exact kept (left.trans same)
      · intro target pending
        -- A target is the sum of the even program counter and an even offset.
        have fits : (Instruction.delayedBranch offset).Fits _ _ _ _ :=
          m.fetchNext_finds (Decode.decode_fits _ _ _) (by rw [fetched])
        rw [left, armed] at pending
        cases pending
        exact even_add next.aligned.pc fits.form.even_of_delayedBranch

/-- No odd target is ever pending. -/
lemma reaches_evenTarget {m m' : Machine β} (reaches : m.Reaches m') (served : m.Served fun _ => True)
    (even : m.EvenTarget) : m'.EvenTarget := by
  obtain ⟨moves, rfl⟩ := reaches
  induction moves generalizing m with
  | nil => exact even
  | cons first moves ih =>
    exact ih (move_served serves_true first served) (move_evenTarget first served even)

/-! ## Delay slots -/

/-- An instruction that is neither reserved nor without meaning is fetched and executed in the delay slot of
the branch whose target it finds pending. The target itself is even on every machine that has been started,
and is rounded down on any other. -/
theorem delay_slot (m : Machine (DeviceBus β)) {target : Word}
    (pending : m.cpu.delay.target = some target) (known : m.operation ≠ .reserved)
    (meaningful : m.operation ≠ .unimplemented) :
    (∃ i c, fetchNext.run m = (.ok i, c) ∧
      executeOne.run m = (.ok (), ((complete m.cpu.status.h).run ((execute i).run c).2).2) ∧
      InSlot (alignHalf target) i m c ((execute i).run c).2) ∧
    ∀ config host, (powerOn config host).Reaches m → alignHalf target = target := by
  constructor
  -- The redirection has used the target up, so that what is executed is a plain instruction there.
  · obtain ⟨i, cursor, bus, fetched, ⟨dst, src, fits⟩, row⟩ := m.fetchNext_slot known meaningful
    have entries := m.fetchNext_entries
    have status := m.fetchNext_confined.2
    rw [fetched] at entries status
    have found : (m.cpu.begin.continueAt cursor).delay.target = some target := pending
    refine ⟨i, _, fetched, ?_, execute_slot fits (alignHalf_mod target) entries status ?_ ?_ row⟩
    · rw [m.executeOne_eq, fetched]
      rfl
    · show (m.cpu.begin.continueAt cursor).redirect.regs.pc = _
      rw [Cpu.redirect_eq, found]
      exact Registers.pc_setPc _ _
    · show (m.cpu.begin.continueAt cursor).redirect.delay.target = none
      rw [Cpu.redirect_eq]
  · intro config host reaches
    have even := reaches_evenTarget reaches ⟨Cpu.powerOn_aligned config, trivial⟩ nofun
    exact alignHalf_of_even (even target pending)

/-- A machine that has executed a delayed branch at 0x1000 and finds another in its delay slot. -/
def chained : Machine (DeviceBus FlatMemory) :=
  (powerOn Variant.e132t.config (({} : FlatMemory).loadHalves 0x1000 [0xec20, 0xec10])).session
    [.host .reset, .host (.setGlobal Global.pc 0x1000), .slice 1]

/-- The second branch is relative to the target of the first. -/
theorem chained_branches : chained.cpu.delay.target = some 0x1022 ∧
    ∃ c, fetchNext.run chained = (.ok (.delayedBranch 0x10), c) ∧
      ((execute (.delayedBranch 0x10)).run c).2.cpu.regs.pc = 0x1022 ∧
      ((execute (.delayedBranch 0x10)).run c).2.cpu.delay.target = some 0x1032 := by
  have pending : chained.cpu.delay.target = some 0x1022 := by decide +kernel
  have known : chained.operation = .dbr := by decide +kernel
  obtain ⟨⟨i, c, fetched, -, slot⟩, -⟩ :=
    delay_slot chained pending (by rw [known]; exact nofun) (by rw [known]; exact nofun)
  have decoded : (fetchNext.run chained).1.toOption = some (.delayedBranch 0x10) := by
    decide +kernel
  rw [fetched] at decoded
  cases decoded
  exact ⟨pending, c, fetched, slot.delayed rfl⟩

end Machine

end E1Machine
