import E1Machine.Bus.Flat
import E1Machine.Proofs.Handlers
import E1Machine.Proofs.Tally

/-!
# The lockout

Some instructions hold interrupts back. The lockout that they raise counts instructions, and the
instruction that raises it is the first that it counts. A delayed branch and a call raise it to two, so
that it covers the instruction after them too, however the two are cut into slices and whatever the host
does in between (`Machine.pair_uninterrupted`). A return, and a write of the status, the control or the
compare register, raise it to one, and that is used up when the instruction completes: an interrupt can
be entered right then (`Machine.blocked_once`). Where the host makes the write, it does cover the
instruction that follows.
-/

namespace E1Machine

/-- Whether an instruction keeps interrupts away from the one after it. -/
def Instruction.holdsNext : Instruction → Bool
  | delayedBranch _ | call _ _ _ => true
  | _ => false

namespace Cpu

/-! ## Entries of interrupts -/

/-- No interrupt has been entered since. -/
def Uninterrupted (before : List Entry) (c : Cpu) : Prop :=
  ∃ new, c.entries.toList = before ++ new ∧ ∀ e ∈ new, e.cause.isInterrupt = false

/-- No interrupt has been entered since now. -/
lemma Uninterrupted.refl (c : Cpu) : c.Uninterrupted c.entries.toList :=
  ⟨[], (List.append_nil _).symm, nofun⟩

/-- What counts is the log of entries. -/
lemma Uninterrupted.congr {before : List Entry} {c d : Cpu} (quiet : c.Uninterrupted before)
    (entries : d.entries = c.entries) : d.Uninterrupted before := by
  unfold Uninterrupted
  rw [entries]
  exact quiet

/-- An entry of another kind is no interrupt. -/
lemma Uninterrupted.push {before : List Entry} {c d : Cpu} (quiet : c.Uninterrupted before) {e : Entry}
    (entries : d.entries = c.entries.push e) (other : e.cause.isInterrupt = false) :
    d.Uninterrupted before := by
  obtain ⟨new, entered, quiet⟩ := quiet
  refine ⟨new ++ [e], ?_, fun e' mem => ?_⟩
  · rw [entries, Array.toList_push, entered, List.append_assoc]
  · obtain old | last := List.mem_append.mp mem
    · exact quiet e' old
    · rw [List.mem_singleton.mp last]
      exact other

/-- What is stacked is noted with its cause. -/
lemma stackEntry_cause (c : Cpu) (cause : EntryCause) (length : BitVec 4) (stacked : List Word) :
    ∃ e : Entry, e.cause = cause ∧
      (c.stackEntry cause length stacked).entries = c.entries.push e := by
  obtain ⟨locals, filled⟩ := fillFrame_changes stacked (c.modifyStatus (·.openFrame length)) 0
  unfold stackEntry
  rw [filled]
  exact ⟨⟨cause, _, stacked, c.delay.target⟩, rfl, rfl⟩

/-- A handler that is entered through a vector is noted with its cause. -/
lemma enterFrame_cause (c : Cpu) (cause : EntryCause) (vector : Word) (length : BitVec 4) :
    ∃ e : Entry, e.cause = cause ∧
      (c.enterFrame cause vector length).entries = c.entries.push e :=
  (c.noteLength c.length).stackEntry_cause cause length _

/-- An emulation is noted with the byte that it emulates. -/
lemma enterEmulation_cause (c : Cpu) (byte : Byte) (dst src : Nat) :
    ∃ e : Entry, e.cause = .emulation byte ∧
      (c.enterEmulation byte dst src).entries = c.entries.push e :=
  (c.noteLength 1).stackEntry_cause (.emulation byte) 6 _

/-- Only taking an interrupt enters one. -/
lemma uninterrupted_invariant (before : List Entry) : Invariant (Uninterrupted before) where
  begin p := p
  continueAt _ p := p
  redirect {c} p := by
    rw [redirect_eq]
    exact p
  modifyStatus _ p := p
  setLocalAt _ _ p := p
  setSp _ p := p
  setGlobal {c} code value p := p.congr (c.setGlobal_kept code value).1
  jump _ p := p
  spend _ p := p
  block _ p := p
  report _ p := p
  enterTrap {c} number p := by
    obtain ⟨e, cause, entries⟩ := c.enterFrame_cause (.trap number) (c.entry.vector number) 6
    exact p.push entries (by rw [cause]; rfl)
  raise {c} exception p := by
    obtain ⟨e, cause, entries⟩ := c.enterFrame_cause (.exception exception)
      (c.entry.vector exception.trapNumber) 2
    exact p.push entries (by rw [cause]; rfl)
  enterEmulation {c} byte dst src p := by
    obtain ⟨e, cause, entries⟩ := c.enterEmulation_cause byte dst src
    exact p.push entries (by rw [cause]; rfl)
  resume _ _ p := p

/-- The tasks after an instruction count the lockout down, and enter no interrupt. -/
lemma finish_uninterrupted {before : List Entry} {c : Cpu} (wasHigh : Bool)
    (quiet : c.Uninterrupted before) : (c.finish wasHigh).Uninterrupted before := by
  obtain ⟨d, eq, finished⟩ := c.finish_cases wasHigh
  have noted : d.Uninterrupted before := by
    rw [eq]
    exact quiet
  obtain run | ⟨-, -, run⟩ := finished
  · rw [run]
    exact noted.congr rfl
  · rw [run]
    exact ((uninterrupted_invariant before).raise .trace noted).congr rfl

/-- The lockout gets no shorter, and no instruction is counted. -/
def Waits (c d : Cpu) : Prop := c.lockout ≤ d.lockout ∧ d.retired = c.retired

/-- A write of a global register may hold interrupts back longer, but no shorter. -/
lemma Waits.setGlobal {c d : Cpu} (waits : Waits c d) (code : Nat) (value : Word) :
    Waits c (d.setGlobal code value) := by
  obtain ⟨regs, timer, entry, lockout, reports, ⟨longer, -⟩, eq⟩ := d.setGlobal_changes code value
  rw [eq]
  exact ⟨Int.le_trans waits.1 longer, waits.2⟩

/-- A reset may hold interrupts back longer, but no shorter. -/
lemma reset_waits (c : Cpu) : Waits c c.reset := by
  have recovered := c.reset_recovered
  refine ⟨?_, by rw [recovered.rest]⟩
  rw [recovered.lockout]
  exact Int.le_max_left _ _

end Cpu

/-- What a host does does not make the lockout shorter, and counts no instruction. -/
lemma HostAction.act_waits (action : HostAction) (c : Cpu) : Cpu.Waits c (action.act c) := by
  have waits : Cpu.Waits c c := ⟨Int.le_refl _, rfl⟩
  cases action with
  | reset => exact c.reset_waits
  | setInput line on =>
    unfold act Cpu.setInput
    dsimp only
    split <;> exact waits
  | setGlobal code value => exact waits.setGlobal code value
  | setLocal code value => exact waits
  | advance cycles => exact waits
  | timerExpired =>
    obtain ⟨regs, timer, eq⟩ := c.timerExpired_changes
    rw [show act .timerExpired c = _ from eq]
    exact waits

namespace Machine

variable {β : Type} [Bus β]

/-- An interrupt is entered on the way from a machine to another. -/
def Interrupted (m m' : Machine β) : Prop := ∃ e ∈ entered m m', e.cause.isInterrupt = true

/-- Whether an interrupt is entered can be decided by the entries made on the way. -/
instance (m m' : Machine β) : Decidable (Interrupted m m') :=
  inferInstanceAs (Decidable (∃ e ∈ entered m m', e.cause.isInterrupt = true))

omit [Bus β] in
/-- Where no interrupt is noted, none is entered. -/
lemma not_interrupted {m m' : Machine β} (quiet : m'.cpu.Uninterrupted m.cpu.entries.toList) :
    ¬ Interrupted m m' := by
  obtain ⟨new, entered, quiet⟩ := quiet
  rintro ⟨e, mem, interrupt⟩
  unfold Machine.entered at mem
  rw [entered, ← Array.length_toList, List.drop_left] at mem
  cases (quiet e mem).symm.trans interrupt

/-- The machine on which an instruction is completed, before it looks for interrupts. -/
def completed (b : Machine β) (i : Instruction) (c : Machine β) : Machine β :=
  ⟨((execute i).run c).2.cpu.finish b.cpu.status.h, ((execute i).run c).2.bus⟩

/-- Completing an instruction counts the lockout that it leaves down. -/
lemma completed_lockout (b : Machine β) (i : Instruction) (c : Machine β) :
    (b.completed i c).cpu.lockout =
      max (((execute i).run c).2.cpu.lockout - 1) Cpu.lockoutFloor :=
  (((execute i).run c).2.cpu.finish_entries b.cpu.status.h).2.1

/-- Up to where it looks for interrupts, an instruction cycle enters none. -/
lemma completed_uninterrupted {before : List Entry} {b c : Machine β} {i : Instruction}
    (fetched : fetchNext.run b = (.ok i, c)) (quiet : b.cpu.Uninterrupted before) :
    (b.completed i c).cpu.Uninterrupted before := by
  have next := (Cpu.uninterrupted_invariant before).fetchNext quiet
  rw [fetched] at next
  apply Cpu.finish_uninterrupted
  exact (Cpu.uninterrupted_invariant before).execute i (fun _ _ _ p => p) next

/-- After that it looks for one if the lockout has run out. -/
lemma move_instruction {b c : Machine β} {i : Instruction} (fetched : fetchNext.run b = (.ok i, c)) :
    b.move .instruction =
      if (b.completed i c).cpu.lockout = 0 then (checkInterrupts.run (b.completed i c)).2
      else b.completed i c := by
  obtain ⟨fault, c', other, -⟩ | ⟨j, c', same, run⟩ := b.executeOne_cases
  · cases fetched.symm.trans other
  · cases fetched.symm.trans same
    show (executeOne.run b).2 = _
    rw [run, complete_run]
    exact apply_ite Prod.snd _ _ _

/-! ## While the lockout holds -/

/-- While the lockout holds, the moves that complete no instruction leave it on and enter nothing. -/
lemma move_locked {m : Machine β} (locked : 0 < m.cpu.lockout) (first : Move)
    (same : (m.move first).cpu.retired = m.cpu.retired) :
    0 < (m.move first).cpu.lockout ∧ (m.move first).cpu.entries = m.cpu.entries := by
  cases first with
  | host action =>
    exact ⟨Int.lt_of_lt_of_le locked (action.act_waits m.cpu).1, (action.act_changes m.cpu).1⟩
  | openSlice budget =>
    have longer : 0 < (m.cpu.openSlice budget).lockout :=
      Int.lt_of_lt_of_le locked (Int.le_max_left _ _)
    have look := checkInterrupts_unchanged (m := ⟨m.cpu.openSlice budget, m.bus⟩) (.inl longer)
    show 0 < (checkInterrupts.run _).2.cpu.lockout ∧ (checkInterrupts.run _).2.cpu.entries = _
    rw [look]
    exact ⟨longer, rfl⟩
  -- An instruction that completes is counted, so only one that stops leaves the count.
  | instruction =>
    have same : (executeOne.run m).2.cpu.retired = m.cpu.retired := same
    show 0 < (executeOne.run m).2.cpu.lockout ∧ (executeOne.run m).2.cpu.entries = _
    obtain ⟨fault, c, fetched, run⟩ | ⟨i, c, -, run⟩ := m.executeOne_cases
    · obtain ⟨fault', cursor, bus, fetch⟩ | ⟨j, cursor, bus, fetch⟩ := m.fetchNext_cases
      · cases fetched.symm.trans fetch
        rw [run]
        exact ⟨locked, rfl⟩
      · cases fetched.symm.trans fetch
    · have retires := executeOne_retires run
      rw [run] at same
      exact absurd (retires.symm.trans same) (Nat.succ_ne_self _)
  | closeSlice => exact ⟨locked, rfl⟩

/-- A move counts instructions up. -/
lemma move_retired (m : Machine β) (first : Move) : m.cpu.retired ≤ (m.move first).cpu.retired := by
  cases first with
  | host action => exact Nat.le_of_eq (action.act_waits m.cpu).2.symm
  | openSlice budget =>
    exact Nat.le_of_eq (checkInterrupts_retired ⟨m.cpu.openSlice budget, m.bus⟩).symm
  | instruction =>
    show m.cpu.retired ≤ (executeOne.run m).2.cpu.retired
    rcases run : executeOne.run m with ⟨fault | _, m'⟩
    · exact Nat.le_of_eq (executeOne_stops run).symm
    · exact Nat.le.intro (executeOne_retires run).symm
  | closeSlice => exact Nat.le_refl _

/-- A sequence of moves counts instructions up. -/
lemma follow_retired (moves : List Move) : ∀ m : Machine β,
    m.cpu.retired ≤ (m.follow moves).cpu.retired := by
  induction moves with
  | nil => exact fun _ => Nat.le_refl _
  | cons first moves ih => exact fun m => Nat.le_trans (m.move_retired first) (ih (m.move first))

/-- The lockout stays on, and nothing is entered, until the next instruction completes. -/
lemma follow_locked (moves : List Move) : ∀ {m : Machine β}, 0 < m.cpu.lockout →
    (m.follow moves).cpu.retired = m.cpu.retired → (m.follow moves).cpu.entries = m.cpu.entries := by
  induction moves with
  | nil => exact fun _ _ => rfl
  | cons first moves ih =>
    intro m locked same
    -- The count never falls, so it stays the same at the first move already.
    have before := m.move_retired first
    have after : (m.move first).cpu.retired ≤ (m.follow (first :: moves)).cpu.retired :=
      follow_retired moves (m.move first)
    obtain ⟨locked, entries⟩ := move_locked locked first (by omega)
    exact (ih locked (by show (m.follow (first :: moves)).cpu.retired = _; omega)).trans entries

/-- From a machine on which the lockout holds, no interrupt is entered before the next instruction has
completed, whatever moves come before that. -/
lemma locked_uninterrupted {before : List Entry} {m : Machine β} (locked : 0 < m.cpu.lockout)
    (quiet : m.cpu.Uninterrupted before) {moves : List Move}
    (same : (m.follow moves).cpu.retired = m.cpu.retired) :
    (m.follow moves).cpu.Uninterrupted before ∧
      ∀ i c, fetchNext.run (m.follow moves) = (.ok i, c) →
        ((m.follow moves).completed i c).cpu.Uninterrupted before := by
  have still := quiet.congr (follow_locked moves locked same)
  exact ⟨still, fun i c fetched => completed_uninterrupted fetched still⟩

/-! ## Pairs of instructions -/

/-- A delayed branch and a call block for two instructions, of which they are the first. -/
lemma execute_blocks (m : Machine β) {i : Instruction} (pair : i.holdsNext = true) :
    2 ≤ ((execute i).run m).2.cpu.lockout := by
  cases i with
  | delayedBranch | call => exact Int.le_max_right _ _
  | _ => cases pair

/-- A taken delayed branch or a call and the instruction after it are not interrupted: none is entered
from before the first of them to when the second has completed, whatever happens in between without
completing an instruction. That can be the end of a slice and the start of another with its look for
interrupts, and anything that a host does. -/
theorem pair_uninterrupted {b : Machine β} {i : Instruction} (fetched : (fetchNext.run b).1 = .ok i)
    (pair : i.holdsNext = true) (between : List Move)
    (next : ((b.move .instruction).follow between).cpu.retired = (b.move .instruction).cpu.retired) :
    ¬ Interrupted b ((b.move .instruction).follow between) ∧
    ∀ j c, fetchNext.run ((b.move .instruction).follow between) = (.ok j, c) →
      ¬ Interrupted b (((b.move .instruction).follow between).completed j c) := by
  obtain ⟨c, fetching⟩ : ∃ c, fetchNext.run b = (.ok i, c) := ⟨_, Prod.ext fetched rfl⟩
  have blocks := c.execute_blocks pair
  -- Completing the first instruction counts two down to one.
  have counted := b.completed_lockout i c
  have locked : 0 < (b.completed i c).cpu.lockout := by omega
  have moved := move_instruction fetching
  rw [if_neg (Int.ne_of_gt locked)] at moved
  rw [moved] at next ⊢
  have quiet := completed_uninterrupted fetching (.refl b.cpu)
  obtain ⟨still, second⟩ := locked_uninterrupted locked quiet next
  exact ⟨not_interrupted still, fun j d fetched => not_interrupted (second j d fetched)⟩

/-- A machine that is to execute a delayed branch with interrupts enabled. -/
def beforeBranch : Machine (DeviceBus FlatMemory) :=
  (powerOn Variant.e132t.config (({} : FlatMemory).loadHalves 0x1000 [0xec20, 0x6621])).session
    [.host .reset, .host (.setGlobal Global.fcr 0), .host (.setGlobal Global.sr 0),
      .host (.setGlobal Global.pc 0x1000)]

/-- A slice that ends with the branch, a line that is driven then, and the start of another slice. -/
def cutPair : List Move := [.closeSlice, .host (.setInput 0 true), .openSlice 1]

/-- The cut does not let the interrupt in, which is entered after the instruction that follows the
branch. -/
theorem cutPair_uninterrupted :
    let cut := (beforeBranch.move .instruction).follow cutPair
    ¬ Interrupted beforeBranch cut ∧
    (∀ j c, fetchNext.run cut = (.ok j, c) → ¬ Interrupted beforeBranch (cut.completed j c)) ∧
    Interrupted beforeBranch (cut.move .instruction) := by
  have fetched : (fetchNext.run beforeBranch).1 = .ok (.delayedBranch 0x20) := by decide +kernel
  have next : ((beforeBranch.move .instruction).follow cutPair).cpu.retired =
    (beforeBranch.move .instruction).cpu.retired := by decide +kernel
  obtain ⟨first, second⟩ := pair_uninterrupted fetched rfl cutPair next
  exact ⟨first, second, by decide +kernel⟩

end Machine

/-! ## Instructions that block once -/

namespace Cpu

/-- A write of a global register holds interrupts back for one instruction at most. -/
lemma setGlobal_lockout_le (c : Cpu) (code : Nat) (value : Word) :
    (c.setGlobal code value).lockout ≤ max c.lockout 1 := by
  obtain ⟨regs, timer, entry, lockout, reports, ⟨-, once⟩, eq⟩ := c.setGlobal_changes code value
  rw [eq]
  exact once

/-- A write of any register holds interrupts back for one instruction at most. -/
lemma write_lockout_le (c : Cpu) (o : Operand) (value : Word) :
    (c.write o value).lockout ≤ max c.lockout 1 := by
  obtain ⟨bank, code⟩ := o
  cases bank with
  | globals => exact c.setGlobal_lockout_le code value
  | locals => exact Int.le_max_left _ _

/-- Work of an instruction that does not hold the next one blocks for one instruction at most. -/
lemma Work.lockout_le {i : Instruction} {c d : Cpu} (work : Work i c d)
    (once : i.holdsNext = false) : d.lockout ≤ max c.lockout 1 := by
  cases work with
  | write target value => exact c.write_lockout_le _ value
  | delay | call => cases once
  | resume => exact Int.le_refl _
  | _ => exact Int.le_max_left _ _

/-- All the work of such an instruction blocks for one instruction at most. -/
lemma Worked.lockout_le {i : Instruction} {c d : Cpu} (worked : Worked i c d)
    (once : i.holdsNext = false) : d.lockout ≤ max c.lockout 1 := by
  induction worked with
  | refl => exact Int.le_max_left _ _
  | tail _ work ih =>
    have last := work.lockout_le once
    omega

/-- The entry of a handler leaves the lockout alone. -/
lemma Enters.lockout_eq {c d : Cpu} (enters : Enters c d) : d.lockout = c.lockout := by
  obtain ⟨regs, lastPc, n, e, -, -, -, rfl⟩ := enters
  rfl

/-- All other instructions block for one instruction at most. -/
lemma Outcome.lockout_le {i : Instruction} {c d : Cpu} (outcome : Outcome i c d)
    (once : i.holdsNext = false) : d.lockout ≤ max c.lockout 1 := by
  obtain ⟨e, worked, ends⟩ := outcome
  have before := worked.lockout_le once
  cases ends with
  | done => exact before
  | enters enters n =>
    rw [← enters.enters.lockout_eq] at before
    exact before
  | @advances address late value =>
    have raised := (e.raise_enters .range).lockout_eq
    have written := (e.raise .range).write_lockout_le address value
    omega

/-- A write that leaves interrupts free leaves the compare register alone. -/
lemma setGlobal_compare (c : Cpu) (code : Nat) (value : Word) :
    (c.setGlobal code value).regs.global Global.tcr = c.regs.global Global.tcr ∨
      0 < (c.setGlobal code value).lockout := by
  by_cases named : code % 32 = Global.tcr
  · by_cases same : c.regs.global Global.tcr = value
    · refine .inl ?_
      unfold setGlobal
      rw [named]
      show (c.writeCompare value).regs.global Global.tcr = _
      unfold writeCompare
      rw [if_pos same]
    · exact .inr (c.setGlobal_held (.inr (.inr ⟨named, same⟩)))
  · refine .inl ?_
    obtain ⟨-, eq⟩ | ⟨-, eq | ⟨v, eq⟩⟩ := c.setGlobal_regs code value
    · rw [eq]
      exact Registers.global_setStatus _ _ (by decide)
    · rw [eq]
    · rw [eq, Registers.global_setGlobal, if_neg]
      rw [Nat.mod_mod]
      exact named

/-- A compare value that is written or held back is so after an entry. -/
lemma EntersFrame.compare {c d : Cpu} {e : Entry} {value : Word} (enters : EntersFrame c e d)
    (before : c.regs.global Global.tcr = value ∨ 0 < c.lockout) (lockout : d.lockout = c.lockout) :
    d.regs.global Global.tcr = value ∨ 0 < d.lockout := by
  rw [lockout, enters.globals Global.tcr (by decide) (by decide)]
  exact before

/-- The compare register changes only by a write that blocks. -/
lemma compare_invariant (value : Word) :
    Invariant fun c => c.regs.global Global.tcr = value ∨ 0 < c.lockout where
  begin p := p.imp_left (Registers.global_setPc _ _ (by decide)).trans
  continueAt _ p := p.imp_left (Registers.global_setPc _ _ (by decide)).trans
  redirect {c} p := by
    rw [redirect_eq]
    cases c.delay.target with
    | none => exact p
    | some target => exact p.imp_left (Registers.global_setPc _ _ (by decide)).trans
  modifyStatus _ p := p.imp_left (Registers.global_setStatus _ _ (by decide)).trans
  setLocalAt _ _ p := p
  setSp _ p := p.imp_left ((Registers.global_setGlobal _ _ _ _).trans (if_neg (by decide))).trans
  setGlobal {c} code new p := by
    have longer := (c.setGlobal_kept code new).2.2
    obtain same | held := c.setGlobal_compare code new
    · exact p.imp same.trans fun held => Int.lt_of_lt_of_le held longer
    · exact .inr held
  jump _ p := p.imp_left (Registers.global_setPc _ _ (by decide)).trans
  spend _ p := p
  block _ p := p.imp_right fun held => Int.lt_of_lt_of_le held (Int.le_max_left _ _)
  report _ p := p
  enterTrap {c} number p := by
    obtain ⟨e, enters, -⟩ := c.enterFrame_frame (.trap number) (c.entry.vector number) 6
    exact enters.compare p (c.enterTrap_enters number).lockout_eq
  raise {c} exception p := by
    obtain ⟨e, enters, -⟩ := c.raise_frame exception
    exact enters.compare p (c.raise_enters exception).lockout_eq
  enterEmulation {c} byte dst src p := by
    obtain ⟨e, enters, -⟩ := c.enterEmulation_frame byte dst src
    exact enters.compare p (c.enterEmulation_enters byte dst src).lockout_eq
  resume {c} address saved _ :=
    .inr (Int.lt_of_lt_of_le Int.one_pos (Int.le_max_right c.lockout 1))

/-- When the lockout has run out, an interrupt is due if they are not locked and a source waits. -/
lemma due_iff {c : Cpu} (free : c.lockout = 0) : c.interruptDue ≠ none ↔ c.status.l = false ∧
    resolveInterrupt (c.regs.global Global.isr) (c.regs.global Global.fcr) c.timer.pending ≠ none := by
  rw [ne_eq, ← c.recognized_iff]
  unfold Recognized
  simp [free]

end Cpu

namespace Machine

variable {β : Type} [Bus β]

/-- An instruction that blocks for one instruction: it returns, or it writes the status or the control
register, or it changes the compare register by a write. -/
def BlocksOnce (i : Instruction) (c : Machine β) : Prop :=
  (∃ src, i = .ret src) ∨ ∃ o ∈ i.written c.cpu, o.bank = .globals ∧
    (o.code % 32 = Global.sr ∨ o.code % 32 = Global.fcr ∨ o.code % 32 = Global.tcr ∧
      ((execute i).run c).2.cpu.regs.global Global.tcr ≠ c.cpu.regs.global Global.tcr)

/-- An instruction that blocks for one instruction does not hold the next one. -/
lemma BlocksOnce.once {i : Instruction} {c : Machine β} (blocks : BlocksOnce i c) :
    i.holdsNext = false := by
  obtain ⟨src, rfl⟩ | ⟨o, written, -⟩ := blocks
  · rfl
  · cases i with
    | delayedBranch | call => cases written
    | _ => rfl

/-- Executed, such an instruction holds interrupts back. -/
lemma BlocksOnce.held {i : Instruction} {c : Machine β} (blocks : BlocksOnce i c) :
    0 < ((execute i).run c).2.cpu.lockout := by
  obtain ⟨src, rfl⟩ | ⟨o, written, bank, sr | fcr | ⟨-, new⟩⟩ := blocks
  · have resumed : 0 < (c.cpu.resume (c.cpu.read src) (c.cpu.read src.next)).lockout :=
      Int.lt_of_lt_of_le Int.one_pos (Int.le_max_right _ _)
    have tally : Cpu.Tally 0 3 [] _ ((ret src).run c).2.cpu := c.ret_tally src .refl
    exact Int.lt_of_lt_of_le resumed tally.longer
  · exact (c.execute_tally 0 i).held written ⟨bank, .inl sr⟩
  · exact (c.execute_tally 0 i).held written ⟨bank, .inr fcr⟩
  · have either := (Cpu.compare_invariant (c.cpu.regs.global Global.tcr)).execute i
      (fun _ _ _ p => p) (m := c) (.inl rfl)
    exact either.resolve_left new

/-- Fetching leaves the lockout alone. -/
lemma fetchNext_lockout {b c : Machine β} {i : Instruction} (fetched : fetchNext.run b = (.ok i, c)) :
    c.cpu.lockout = b.cpu.lockout := by
  obtain ⟨cursor, bus, rfl⟩ := b.fetchNext_ok fetched
  rw [Cpu.redirect_eq]
  split <;> rfl

/-- The lockout of such an instruction runs out when it completes, unless a longer one was on before. -/
lemma BlocksOnce.runsOut {b c : Machine β} {i : Instruction} (fetched : fetchNext.run b = (.ok i, c))
    (blocks : BlocksOnce i c) : (b.completed i c).cpu.lockout = 0 ↔ b.cpu.lockout ≤ 1 := by
  have held := blocks.held
  have longer := (c.execute_tally 0 i).longer
  have most := (c.execute_outcome i).lockout_le blocks.once
  have counted := b.completed_lockout i c
  have floor : Cpu.lockoutFloor < 0 := by decide
  rw [fetchNext_lockout fetched] at longer most
  omega

/-- A look for interrupts that finds one enters it. -/
lemma interrupted_look {b d : Machine β} (quiet : d.cpu.Uninterrupted b.cpu.entries.toList)
    (due : d.cpu.interruptDue ≠ none) : Interrupted b (checkInterrupts.run d).2 := by
  obtain ⟨none, -⟩ | ⟨source, bus, -, run⟩ := d.checkInterrupts_cases
  · exact absurd none due
  · obtain ⟨e, cause, entries⟩ : ∃ e : Entry, e.cause = .interrupt source ∧
        (d.cpu.takeInterrupt source).entries = d.cpu.entries.push e :=
      Cpu.enterFrame_cause _ _ _ _
    obtain ⟨new, entered, -⟩ := quiet
    refine ⟨e, ?_, by rw [cause]; rfl⟩
    unfold Machine.entered
    rw [run]
    dsimp only
    rw [entries, Array.toList_push, entered, List.append_assoc, ← Array.length_toList, List.drop_left]
    exact List.mem_append_right new (List.mem_singleton_self e)

/-- How long the lockout of a single instruction protects. It does not protect the instruction after one
that returns or makes such a write: an interrupt is entered at the end of the writing instruction itself
exactly if no longer lockout was on before, interrupts are not locked, and an enabled source asks for one.
A write by the host does protect the instruction that comes next, whatever the host does in between. -/
theorem blocked_once :
    (∀ (b c : Machine β) (i : Instruction), fetchNext.run b = (.ok i, c) → BlocksOnce i c →
      (Interrupted b (b.move .instruction) ↔
        b.cpu.lockout ≤ 1 ∧ (b.completed i c).cpu.status.l = false ∧
          resolveInterrupt ((b.completed i c).cpu.regs.global Global.isr)
            ((b.completed i c).cpu.regs.global Global.fcr) (b.completed i c).cpu.timer.pending ≠
              none)) ∧
    (∀ (m : Machine β) (code : Nat) (value : Word), code % 32 = Global.sr ∨ code % 32 = Global.fcr ∨
      code % 32 = Global.tcr ∧ m.cpu.regs.global Global.tcr ≠ value →
      ∀ between : List Move, ((m.move (.host (.setGlobal code value))).follow between).cpu.retired =
        m.cpu.retired →
      ¬ Interrupted m ((m.move (.host (.setGlobal code value))).follow between) ∧
      ∀ i c, fetchNext.run ((m.move (.host (.setGlobal code value))).follow between) = (.ok i, c) →
        ¬ Interrupted m (((m.move (.host (.setGlobal code value))).follow between).completed i c)) := by
  constructor
  · intro b c i fetched blocks
    have moved := move_instruction fetched
    have runsOut := blocks.runsOut fetched
    have quiet := completed_uninterrupted fetched (.refl b.cpu)
    -- Only where the lockout runs out does the processor look for interrupts at all.
    by_cases short : b.cpu.lockout ≤ 1
    · have out := runsOut.mpr short
      rw [if_pos out] at moved
      rw [moved, ← Cpu.due_iff out, and_iff_right short]
      constructor
      · intro interrupted none
        rw [checkInterrupts_unchanged ((b.completed i c).cpu.recognized_iff.mpr none)] at interrupted
        exact not_interrupted quiet interrupted
      · exact interrupted_look quiet
    · rw [if_neg (mt runsOut.mp short)] at moved
      rw [moved]
      exact iff_of_false (not_interrupted quiet) fun all => short all.1
  · intro m code value holds between same
    -- The host may do what it likes in between: the lockout stays, as long as no instruction is counted.
    have held : 0 < (m.move (.host (.setGlobal code value))).cpu.lockout :=
      m.cpu.setGlobal_held holds
    have written : (m.move (.host (.setGlobal code value))).cpu.Uninterrupted m.cpu.entries.toList :=
      (Cpu.Uninterrupted.refl m.cpu).congr (m.cpu.setGlobal_kept code value).1
    obtain ⟨waits, counted⟩ := (HostAction.setGlobal code value).act_waits m.cpu
    obtain ⟨still, next⟩ := locked_uninterrupted held written (same.trans counted.symm)
    exact ⟨not_interrupted still, fun i c fetched => not_interrupted (next i c fetched)⟩

/-- A machine that is to unlock interrupts by a write of the status register, with a line driven. -/
def beforeUnlock : Machine (DeviceBus FlatMemory) :=
  (powerOn Variant.e132t.config
    (({} : FlatMemory).loadHalves 0x1000 [0x6621, 0x7512, 0x8000, 0x6621])).session
    [.host .reset, .host (.setGlobal Global.fcr 0), .host (.setGlobal Global.pc 0x1000), .slice 1,
      .host (.setInput 0 true)]

/-- The instruction that unlocks. -/
def unlock : Instruction := .logical .andNot ⟨.globals, Global.sr⟩ (.literal 0x8000)

/-- The interrupt is entered at the end of the write, before the instruction that follows it. -/
theorem interrupted_at_once :
    (fetchNext.run beforeUnlock).1 = .ok unlock ∧
    BlocksOnce unlock (fetchNext.run beforeUnlock).2 ∧
    Interrupted beforeUnlock (beforeUnlock.move .instruction) ∧
    (beforeUnlock.move .instruction).cpu.retired = beforeUnlock.cpu.retired + 1 := by
  have written : ⟨.globals, Global.sr⟩ ∈ unlock.written (fetchNext.run beforeUnlock).2.cpu :=
    List.mem_singleton_self _
  exact ⟨by decide +kernel, .inr ⟨_, written, rfl, .inl rfl⟩, by decide +kernel, by decide +kernel⟩

/-- The write by the instruction lets the interrupt in, and the same write by the host holds it back over
the start of a slice. -/
theorem unlock_blocked_once :
    Interrupted beforeUnlock (beforeUnlock.move .instruction) ∧
    ¬ Interrupted beforeUnlock
      ((beforeUnlock.move (.host (.setGlobal Global.sr 0))).follow [.openSlice 1]) := by
  obtain ⟨instruction, host⟩ := blocked_once (β := DeviceBus FlatMemory)
  have fetched : (fetchNext.run beforeUnlock).1 = .ok unlock := by decide +kernel
  have written : ⟨.globals, Global.sr⟩ ∈ unlock.written (fetchNext.run beforeUnlock).2.cpu :=
    List.mem_singleton_self _
  have same : ((beforeUnlock.move (.host (.setGlobal Global.sr 0))).follow
    [.openSlice 1]).cpu.retired = beforeUnlock.cpu.retired := by decide +kernel
  obtain ⟨still, -⟩ := host beforeUnlock Global.sr 0 (.inl rfl) [.openSlice 1] same
  have fetching : fetchNext.run beforeUnlock = (.ok unlock, (fetchNext.run beforeUnlock).2) := by
    rw [← fetched, Prod.eta]
  have enters := instruction beforeUnlock _ unlock fetching (.inr ⟨_, written, rfl, .inl rfl⟩)
  exact ⟨enters.mpr (by decide +kernel), still⟩

end Machine

end E1Machine
