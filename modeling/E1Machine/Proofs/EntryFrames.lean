import E1Machine.Bus.Flat
import E1Machine.Proofs.Frames
import E1Machine.Proofs.Moves
import E1Machine.Proofs.Outcome

/-!
# Entry frames are kept

An instruction that enters a handler does its work first, in the frame in which it starts, and what it
stacks is what the handler finds: the entry comes last. One instruction breaks the order. A signed store
that advances its address register raises the range error before it advances, so a local address
register is written in the frame of the handler, where it can replace the return address.

Main statement: `Machine.entry_frame_kept_iff`, the frame of an entry is kept exactly if the instruction
is no such store, or the advanced address happens to be what the entry left in that register.
-/

namespace E1Machine

namespace Instruction

/-- Whether an instruction leaves the frame pointer and the frame length alone. -/
def keepsFrame : Instruction → Bool
  | call _ _ _ | frame _ _ | ret _ => false
  | _ => true

/-- Whether an instruction changes local registers other than its targets. -/
def reachesBank : Instruction → Bool
  | store .stack _ _ | call _ _ _ | ret _ => true
  | _ => false

/-- An instruction that moves the frame has no targets. -/
lemma keepsFrame_of_target {i : Instruction} {o : Operand} (target : o ∈ i.targets) :
    i.keepsFrame = true := by
  cases i with
  | call | frame | ret => exact absurd target List.not_mem_nil
  | _ => rfl

end Instruction

namespace Cpu

/-! ## The work before an entry -/

/-- No work is an entry. -/
lemma Work.entries_eq {i : Instruction} {c d : Cpu} (work : Work i c d) : d.entries = c.entries := by
  cases work with
  | write target value => exact c.write_entries _ value
  | call stacked target =>
    obtain ⟨locals, eq⟩ := fillFrame_changes stacked c _
    rw [eq]
    rfl
  | _ => rfl

/-- No work of an instruction is an entry. -/
lemma Worked.entries_eq {i : Instruction} {c d : Cpu} (worked : Worked i c d) :
    d.entries = c.entries := by
  induction worked with
  | refl => rfl
  | tail _ work ih => exact work.entries_eq.trans ih

/-- What an instruction does before it enters a handler: the frame pointer stands still unless moving it
is the instruction's task, and the local registers that change are its targets in the frame in which it
starts. -/
structure OwnFrame (i : Instruction) (c d : Cpu) : Prop where
  fp (keeps : i.keepsFrame = true) : d.status.fp = c.status.fp
  fl (keeps : i.keepsFrame = true) : d.status.fl = c.status.fl
  locals (own : i.reachesBank = false) (slot : Fin 64)
    (outside : ∀ o ∈ i.targets, o.bank = .locals → c.regs.slot o.code ≠ slot) :
    d.regs.localAt slot = c.regs.localAt slot

/-- Work keeps to the frame in which it starts. -/
lemma Work.ownFrame {i : Instruction} {c d : Cpu} (work : Work i c d) : OwnFrame i c d := by
  cases work with
  | flags keeps =>
    exact ⟨fun _ => (congrArg Status.fp (keeps c.status) :),
      fun _ => (congrArg Status.fl (keeps c.status) :), fun _ _ _ => rfl⟩
  | @write _ _ o target value =>
    have status := c.write_status o value
    refine ⟨fun _ => ?_, fun _ => ?_, fun _ slot outside => ?_⟩
    · obtain eq | eq := status <;> rw [eq]; rfl
    · obtain eq | eq := status <;> rw [eq]; rfl
    · exact (c.write_localAt o value slot).trans
        (if_neg fun named => outside o target named.1 named.2)
  | spend | report | delay => exact ⟨fun _ => rfl, fun _ => rfl, fun _ _ _ => rfl⟩
  | branch target =>
    refine ⟨fun _ => ?_, fun _ => ?_, fun _ slot _ => Registers.localAt_setGlobal _ _ _ _⟩
    · rw [jump_status]
    · rw [jump_status]
  | push => exact ⟨fun _ => rfl, fun _ => rfl, nofun⟩
  | spill => exact ⟨nofun, nofun, fun _ slot _ => Registers.localAt_setGlobal _ _ _ _⟩
  | reframe => exact ⟨nofun, nofun, fun _ _ _ => rfl⟩
  | call | resume | refill => exact ⟨nofun, nofun, nofun⟩

/-- All the work of an instruction keeps to the frame in which it starts. -/
lemma Worked.ownFrame {i : Instruction} {c d : Cpu} (worked : Worked i c d) : OwnFrame i c d := by
  induction worked with
  | refl => exact ⟨fun _ => rfl, fun _ => rfl, fun _ _ _ => rfl⟩
  | @tail d d' _ work ih =>
    have last := work.ownFrame
    refine ⟨fun keeps => (last.fp keeps).trans (ih.fp keeps),
      fun keeps => (last.fl keeps).trans (ih.fl keeps), fun own slot outside => ?_⟩
    refine (last.locals own slot fun o target isLocal => ?_).trans (ih.locals own slot outside)
    -- An instruction with targets keeps the frame, so they are the same slots all along.
    have still := ih.fp (Instruction.keepsFrame_of_target target)
    unfold Registers.slot
    have same : d.regs.status.fp = c.regs.status.fp := still
    rw [same]
    exact outside o target isLocal

/-! ## The entry -/

/-- What an instruction stacks when it enters a handler. -/
def stackedBy (c : Cpu) : Instruction → List Word
  | .emulate _ dst src => [c.stackAddress dst, c.regs.inFrame src, c.regs.inFrame (src + 1),
      c.returnPc, (c.noteLength 1).status.bits]
  | _ => [c.returnPc, (c.noteLength c.length).status.bits]

/-- Whatever handler an instruction enters, its frame is opened and filled with what the instruction stacks. -/
lemma EntersBy.frame {i : Instruction} {c d : Cpu} (enters : EntersBy i c d) :
    ∃ e : Entry, EntersFrame c e d ∧ e.stacked = c.stackedBy i := by
  cases enters with
  | @trap number condition =>
    obtain ⟨e, enters, stacked, -⟩ := c.enterFrame_frame (.trap number) (c.entry.vector number) 6
    exact ⟨e, enters, stacked⟩
  | @emulation byte dst src =>
    obtain ⟨e, enters, stacked, -⟩ := c.enterEmulation_frame byte dst src
    exact ⟨e, enters, stacked⟩
  | @exception _ _ exception raises =>
    obtain ⟨e, enters, stacked⟩ := c.raise_frame exception
    refine ⟨e, enters, stacked.trans ?_⟩
    cases i with
    | emulate => exact absurd raises List.not_mem_nil
    | _ => rfl

/-- Instruction `i` enters a handler when its work has led from `m` to `c`, which is noted as `e`. -/
structure Makes (i : Instruction) (m c : Cpu) (e : Entry) (after : Cpu) : Prop where
  worked : Worked i m c
  entries : after.entries = m.entries.push e
  frame : e.frame = c.status.fp + BitVec.ofNat 7 c.status.frameLength
  fp : after.status.fp = e.frame
  stacked : e.stacked = c.stackedBy i

/-- An entry after the work of an instruction is one that the instruction makes. -/
lemma EntersFrame.makes {i : Instruction} {m c d : Cpu} {e : Entry} (enters : EntersFrame c e d)
    (worked : Worked i m c) (stacked : e.stacked = c.stackedBy i) : Makes i m c e d :=
  ⟨worked, by rw [enters.entries, worked.entries_eq], enters.frame, enters.fp, stacked⟩

/-- An outcome in which nothing is written after the entry keeps its frame. -/
lemma Outcome.kept {i : Instruction} {m after : Cpu} (outcome : Outcome i m after)
    (other : ∀ form address step data, i ≠ .store form (.advancing address step) data) :
    after.entries = m.entries ∨
      ∃ c e, Makes i m c e after ∧ Registers.Filled e.frame.toNat 0 e.stacked c.regs after.regs := by
  obtain ⟨c, worked, ends⟩ := outcome
  cases ends with
  | done => exact .inl worked.entries_eq
  | enters entersBy n =>
    obtain ⟨e, enters, stacked⟩ := entersBy.frame
    have charged := enters.spend n
    exact .inr ⟨c, e, charged.makes worked stacked, charged.filled⟩
  | advances late value =>
    obtain ⟨form, step, data, eq⟩ := Instruction.late_eq late
    exact absurd eq (other _ _ _ _)

/-- Whether a store advances its address register over what the range error has left there. -/
def Overwrites (c : Cpu) (i : Instruction) : Prop :=
  ∃ form address step data, i = .store form (.advancing address step) data ∧
    form.loses (c.stored data).1 = true ∧ address.bank = .locals ∧
    ((c.charge form.cost).raise .range).read address ≠ c.read address + step

/-- Instruction `i`, executed from `m`, enters a handler, which is noted as `e`. The new frame holds what was stacked,
and all other local registers are as they were when the entry was made, exactly if the instruction does not advance
an address register over it. -/
def LeavesFrame (i : Instruction) (m : Cpu) (e : Entry) (after : Cpu) : Prop :=
  ∃ c, Makes i m c e after ∧
    (Registers.Filled e.frame.toNat 0 e.stacked c.regs after.regs ↔ ¬ m.Overwrites i)

/-- The handler finds the stacked words in its registers. -/
lemma LeavesFrame.read {i : Instruction} {m after : Cpu} {e : Entry} (leaves : LeavesFrame i m e after)
    (kept : ¬ m.Overwrites i) {k : Nat} {value : Word} (stacked : e.stacked[k]? = some value) :
    after.read ⟨.locals, k⟩ = value := by
  obtain ⟨c, makes, filled⟩ := leaves
  exact (filled.mpr kept).read makes.fp stacked

end Cpu

/-- A filled frame stays so under a write of an operand exactly if the write changes no local register. -/
lemma Registers.Filled.write_iff {fp code : Nat} {values : List Word} {before : Registers} {c : Cpu}
    (filled : Filled fp code values before c.regs) (o : Operand) (value : Word) :
    Filled fp code values before (c.write o value).regs ↔
      ¬ (o.bank = .locals ∧ c.read o ≠ value) := by
  have written := c.write_localAt o value
  constructor
  -- The frame fixes every local register, so that a write which it survives has changed none.
  · rintro kept ⟨isLocal, changed⟩
    have same := filled.unique kept (c.regs.slot o.code)
    rw [written, if_pos ⟨isLocal, rfl⟩] at same
    refine changed (Eq.trans ?_ same.symm)
    unfold Cpu.read
    rw [isLocal]
    rfl
  · intro unchanged
    refine filled.congr (fun _ => rfl) fun slot => (written slot).trans ?_
    split
    · next named =>
      have same : c.read o = value := by_contra fun changed => unchanged ⟨named.1, changed⟩
      rw [← same, ← named.2]
      unfold Cpu.read
      rw [named.1]
      rfl
    · rfl

namespace Machine

variable {β : Type} [Bus β]

/-- A store that advances its address register either is done or raises a range error first. -/
lemma advancing_cpu (m : Machine β) (form : DataForm) (address data : Operand) (step : Word) :
    let after := ((execute (.store form (.advancing address step) data)).run m).2.cpu
    (form.loses (m.cpu.stored data).1 = false → after.entries = m.cpu.entries) ∧
    (form.loses (m.cpu.stored data).1 = true →
      after = ((m.cpu.charge form.cost).raise .range).write address (m.cpu.read address + step)) := by
  intro after
  obtain ⟨d, left, run⟩ := m.store_cpu form (.advancing address step) data
  have ended : after = (d.raiseIf (form.loses (m.cpu.stored data).1) .range).write address
    (m.cpu.read address + step) := run
  constructor
  · intro fits
    rw [ended, fits, Cpu.write_entries]
    -- The stored word may be one of the bank, which enters nothing and is no part of a form that loses.
    obtain rfl | ⟨rfl, slot, value, rfl⟩ := left
    · rfl
    · rfl
  · intro loses
    rw [ended, loses]
    obtain rfl | ⟨rfl, slot, value, rfl⟩ := left
    · rfl
    · cases loses

/-- A store that enters a handler advances its address register in the frame of the handler. -/
lemma advancing_read (m : Machine β) (form : DataForm) {address : Operand} (isLocal : address.bank = .locals)
    (data : Operand) (step : Word) :
    let after := ((execute (.store form (.advancing address step) data)).run m).2.cpu
    after.entries ≠ m.cpu.entries → after.read address = m.cpu.read address + step := by
  intro after enters
  obtain ⟨done, late⟩ := m.advancing_cpu form address data step
  cases loses : form.loses (m.cpu.stored data).1 with
  | false => exact absurd (done loses) enters
  | true =>
    have ended : after = _ := late loses
    rw [ended]
    exact Cpu.read_write_local _ isLocal _

/-- An entry that an instruction makes leaves its frame, unless the instruction advances an address register over
it. -/
lemma execute_leavesFrame (m : Machine β) (i : Instruction) :
    let after := ((execute i).run m).2.cpu
    after.entries = m.cpu.entries ∨ ∃ e, Cpu.LeavesFrame i m.cpu e after := by
  intro after
  by_cases advancing : ∃ form address step data, i = .store form (.advancing address step) data
  · obtain ⟨form, address, step, data, rfl⟩ := advancing
    obtain ⟨done, late⟩ := m.advancing_cpu form address data step
    -- An advancing store raises before it writes the address register: the frame is left as it was exactly if that
    -- write changes nothing in it.
    cases loses : form.loses (m.cpu.stored data).1 with
    | false => exact .inl (done loses)
    | true =>
      have ended : after = _ := late loses
      have charged : Cpu.Worked (.store form (.advancing address step) data) m.cpu
        (m.cpu.charge form.cost) := Cpu.Worked.charge .refl _
      obtain ⟨e, enters, stacked⟩ := (m.cpu.charge form.cost).raise_frame .range
      obtain ⟨worked, entries, frame, fp, stacked⟩ := enters.makes charged stacked
      rw [ended]
      refine .inr ⟨e, _, ⟨worked, ?_, frame, ?_, stacked⟩, ?_⟩
      · rw [Cpu.write_entries]
        exact entries
      · rw [← fp]
        obtain eq | eq := Cpu.write_status _ address (m.cpu.read address + step) <;> rw [eq]
        rfl
      · rw [enters.filled.write_iff, not_iff_not]
        constructor
        · exact fun changed => ⟨form, address, step, data, rfl, loses, changed⟩
        · rintro ⟨_, _, _, _, ⟨⟩, -, changed⟩
          exact changed
  · have other form address step data (eq : i = .store form (.advancing address step) data) : False :=
      advancing ⟨form, address, step, data, eq⟩
    -- Every other instruction is done with its work before it enters.
    obtain entries | ⟨c, e, makes, filled⟩ := (m.execute_outcome i).kept other
    · exact .inl entries
    · refine .inr ⟨e, c, makes, iff_of_true filled ?_⟩
      rintro ⟨form, address, step, data, eq, -⟩
      exact other form address step data eq

/-- An instruction enters no handler, or it enters one when its work in its own frame is done. Then the
new frame holds what was stacked, and all other local registers are as they were when the entry was made,
exactly if the instruction does not advance an address register over it. A store that enters advances its
address register all the same, the one of the new frame. -/
theorem entry_frame_kept_iff (m : Machine β) (i : Instruction) :
    let after := ((execute i).run m).2.cpu
    after.entries = m.cpu.entries ∨
    ∃ c e, Cpu.Makes i m.cpu c e after ∧ Cpu.OwnFrame i m.cpu c ∧
      (Registers.Filled e.frame.toNat 0 e.stacked c.regs after.regs ↔ ¬ m.cpu.Overwrites i) ∧
      ∀ form address step data, i = .store form (.advancing address step) data →
        address.bank = .locals → after.read address = m.cpu.read address + step := by
  intro after
  obtain quiet | ⟨e, c, makes, filled⟩ := m.execute_leavesFrame i
  · exact .inl quiet
  · refine .inr ⟨c, e, makes, makes.worked.ownFrame, filled, ?_⟩
    rintro form address step data rfl isLocal
    refine m.advancing_read form isLocal data step fun quiet => ?_
    exact Cpu.push_ne _ _ (makes.entries.symm.trans quiet)

/-- A store of a signed byte through the first local register, from the second. -/
def signedStore : Instruction := .store (.byte true) (.advancing ⟨.locals, 0⟩ 4) ⟨.locals, 1⟩

/-- A machine that is to execute such a store at address 4096, of a value that does not fit. -/
def beforeSignedStore : Machine (DeviceBus FlatMemory) :=
  (powerOn Variant.e132t.config (({} : FlatMemory).loadHalves 0x1000 [0x9f01, 4])).session
    [.host .reset, .host (.setGlobal Global.pc 0x1000), .host (.setLocal 0 0x2000),
      .host (.setLocal 1 0x180)]

/-- The store replaces the return address 0x1005 in the frame of the range error. -/
theorem return_address_overwritten :
    let fetched := fetchNext.run beforeSignedStore
    let after := ((execute signedStore).run fetched.2).2.cpu
    fetched.1.toOption = some signedStore ∧
      after.entries.toList.map (fun e => (e.frame, e.stacked)) = [(2, [0x1005, 0x00548000])] ∧
      after.regs.localAt (localSlot 0 2) = 0x2004 := by
  decide +kernel

end Machine

end E1Machine
