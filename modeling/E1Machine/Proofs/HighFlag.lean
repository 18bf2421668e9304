import E1Machine.Proofs.Confinement
import E1Machine.Proofs.EntryFrames
import E1Machine.Proofs.Lockout

/-!
# The high flag

The high flag is meant for one instruction: the one that finds it set. What takes it away again compares
with the flag as it was before the instruction, and so it flips the flag rather than clear it. An instruction
that leaves the status register alone ends with the flag clear, but one that clears the flag itself ends with
the flag set, and a handler that it enters finds the flag in the stacked status register, from where a return
applies it again (`high_outlives`).

Main statement: `Machine.high_flipped`, the flag is set after an instruction exactly if the instruction flipped
it, and what it stacks has the flag as the instruction leaves it.
-/

namespace E1Machine

/-- Whether an operand names the status register. -/
def Operand.IsStatus (o : Operand) : Prop := o.bank = .globals ∧ o.code % 32 = Global.sr

/-- Whether an instruction writes the status register: it returns, or has it among its results. -/
def Instruction.WritesStatus (i : Instruction) : Prop :=
  (∃ src, i = .ret src) ∨ ∃ o ∈ i.targets, o.IsStatus

/-- The high flag of the status register that was stacked, which is what was stacked last. -/
def Entry.high (e : Entry) : Bool := (Status.ofBits (e.stacked.getLastD 0)).h

namespace Cpu

/-- The high flag stays as it is, and every handler entered meanwhile finds it so. -/
structure HoldsHigh (c d : Cpu) : Prop where
  high_eq : d.status.h = c.status.h
  entered : ∃ new, d.entries.toList = c.entries.toList ++ new ∧ ∀ e ∈ new, e.high = c.status.h

namespace HoldsHigh

variable {c d e : Cpu}

/-- The high flag is held where neither it nor the log of entries changes. -/
lemma quiet (status : d.status.h = c.status.h) (entries : d.entries = c.entries) : HoldsHigh c d :=
  ⟨status, [], by rw [entries, List.append_nil], nofun⟩

/-- The high flag is held from one processor to a third by way of a second. -/
lemma trans (first : HoldsHigh c d) (second : HoldsHigh d e) : HoldsHigh c e := by
  obtain ⟨new, entered, high⟩ := first.entered
  obtain ⟨new', entered', high'⟩ := second.entered
  refine ⟨second.high_eq.trans first.high_eq, new ++ new', ?_, fun e mem => ?_⟩
  · rw [entered', entered, List.append_assoc]
  · obtain early | late := List.mem_append.mp mem
    · exact high e early
    · exact (high' e late).trans first.high_eq

/-- An entry that stacks the status register last. -/
lemma push {entry : Entry} (status : Status) (image : status.h = c.status.h)
    (entries : d.entries = c.entries.push entry) (stacked : entry.stacked.getLastD 0 = status.bits)
    (kept : d.status.h = c.status.h) : HoldsHigh c d := by
  refine ⟨kept, [entry], by rw [entries, Array.toList_push], fun e mem => ?_⟩
  rw [List.mem_singleton.mp mem, Entry.high, stacked, Status.ofBits_bits]
  exact image

end HoldsHigh

/-- The entry of a handler holds the high flag and stacks it. -/
lemma enterFrame_high (c : Cpu) (cause : EntryCause) (vector : Word) (length : BitVec 4) :
    HoldsHigh c (c.enterFrame cause vector length) := by
  obtain ⟨e, enters, stacked, status, -⟩ := c.enterFrame_frame cause vector length
  exact .push (c.noteLength c.length).status rfl enters.entries (by rw [stacked]; rfl)
    (by rw [status]; rfl)

/-- The emulation of an instruction holds the high flag and stacks it. -/
lemma enterEmulation_high (c : Cpu) (byte : Byte) (dst src : Nat) :
    HoldsHigh c (c.enterEmulation byte dst src) := by
  obtain ⟨e, enters, stacked, status, -⟩ := c.enterEmulation_frame byte dst src
  exact .push (c.noteLength 1).status rfl enters.entries (by rw [stacked]; rfl)
    (by rw [status]; rfl)

/-- Whatever handler an instruction enters, the high flag is held and stacked. -/
lemma EntersBy.high {i : Instruction} {c d : Cpu} (enters : EntersBy i c d) : HoldsHigh c d := by
  cases enters with
  | trap => exact c.enterFrame_high _ _ _
  | emulation => exact c.enterEmulation_high _ _ _
  | exception => exact c.enterFrame_high _ _ _

/-! ## The work of an instruction -/

/-- A write of another operand keeps the status register. -/
lemma write_status_of_other (c : Cpu) {o : Operand} (other : ¬o.IsStatus) (value : Word) :
    (c.write o value).status = c.status :=
  c.write_status_of_ne (fun isGlobal isSr => other ⟨isGlobal, isSr⟩) value

/-- No work but a write of the status register, or a return, changes the high flag. -/
lemma Work.high_eq {i : Instruction} {c d : Cpu} (work : Work i c d) (plain : ¬i.WritesStatus) :
    d.status.h = c.status.h := by
  cases work with
  | flags keeps => exact (congrArg Status.h (keeps c.status) :)
  | write target value =>
    rw [c.write_status_of_other fun isStatus => plain (.inr ⟨_, target, isStatus⟩)]
  | branch target => rw [jump_status]
  | call stacked target =>
    obtain ⟨locals, eq⟩ := fillFrame_changes stacked c _
    rw [eq]
    exact (congrArg Status.h (jump_status _ target) :)
  | spill sp => exact congrArg Status.h (Registers.status_setGlobal _ _ _ (by decide))
  | resume address saved => exact absurd (.inl ⟨_, rfl⟩) plain
  | refill sp slot value => exact absurd (.inl ⟨_, rfl⟩) plain
  | _ => rfl

/-- The work of an instruction that does not write the status register holds the high flag. -/
lemma Worked.high {i : Instruction} {c d : Cpu} (worked : Worked i c d) (plain : ¬i.WritesStatus) :
    HoldsHigh c d := by
  refine .quiet ?_ (Worked.entries_eq worked)
  induction worked with
  | refl => rfl
  | tail _ work ih => exact (work.high_eq plain).trans ih

/-- When an instruction has done its work, the flag stays as it is, unless it is written afterwards. -/
lemma Ends.high {i : Instruction} {c d : Cpu} (ends : Ends i c d)
    (late : ∀ o, i.late = some o → ¬o.IsStatus) : HoldsHigh c d := by
  cases ends with
  | done => exact .quiet rfl rfl
  | enters enters n => exact enters.high.trans (.quiet rfl rfl)
  | advances isLate value =>
    refine (c.enterFrame_high _ _ _).trans (.quiet ?_ (write_entries _ _ _))
    rw [write_status_of_other _ (late _ isLate)]
    rfl

/-! ## The end of an instruction -/

/-- Completing an instruction flips the flag if it was set before, and then keeps it. -/
lemma finish_high (c : Cpu) (wasHigh : Bool) :
    HoldsHigh (c.modifyStatus fun s => { s with h := s.h ^^ wasHigh }) (c.finish wasHigh) := by
  obtain ⟨d, eq, finished⟩ := c.finish_cases wasHigh
  have noted : HoldsHigh (c.modifyStatus fun s => { s with h := s.h ^^ wasHigh }) d := by
    rw [eq]
    exact .quiet rfl rfl
  have retired (e : Cpu) : HoldsHigh e e.retire := .quiet rfl rfl
  obtain run | ⟨-, -, run⟩ := finished
  · rw [run]
    exact noted.trans (retired d)
  · rw [run]
    exact (noted.trans (d.enterFrame_high _ _ _)).trans (retired _)

/-- Taking an interrupt holds the high flag and stacks it. -/
lemma takeInterrupt_high (c : Cpu) (source : InterruptSource) :
    HoldsHigh c (c.takeInterrupt source) := by
  refine HoldsHigh.trans ?_ (enterFrame_high _ _ _ _)
  exact .quiet rfl rfl

end Cpu

namespace Decode

variable {β : Type} [Bus β]

/-- What an instruction writes late is never the status register. -/
lemma decode_late (address : Word) (word : Half) (status : Status) :
    Finds (fun found => ∀ i, found = some i → ∀ o, i.late = some o → ¬o.IsStatus)
      (Instruction.decode address word status : Decode β (Option Instruction)) := by
  obtain ⟨dstField, srcField⟩ := fields_lt word
  refine decode_finds address word status fun i form => ?_
  rintro ⟨bank, code⟩ late ⟨bankEq, isSr⟩
  by_cases move : i.IsMove
  · exact absurd (late.symm.trans (form.of_move move).2.2) (Option.some_ne_none _)
  · obtain ⟨low, -, notSr⟩ := (form.isUser dstField srcField move).late _ late
    have small : code ≤ 16 := low bankEq
    cases bankEq
    have other : code ≠ 1 := by simpa [Operand.isSr] using notSr
    unfold Global.sr at isSr
    dsimp only at isSr
    omega

end Decode

namespace Machine

variable {β : Type} [Bus β]

/-- A look for interrupts holds the high flag. -/
lemma checkInterrupts_high (m : Machine β) : Cpu.HoldsHigh m.cpu (checkInterrupts.run m).2.cpu := by
  obtain ⟨-, run⟩ | ⟨source, bus, -, run⟩ := m.checkInterrupts_cases
  · rw [run]
    exact .quiet rfl rfl
  · rw [run]
    exact m.cpu.takeInterrupt_high source

/-- Fetching enters no handler. -/
lemma fetchNext_entries (m : Machine β) :
    (fetchNext.run m).2.cpu.entries = m.cpu.entries := by
  obtain ⟨fault, cursor, bus, run⟩ | ⟨i, cursor, bus, run⟩ := m.fetchNext_cases
  · rw [run]
    rfl
  · rw [run, Cpu.redirect_eq]
    split <;> rfl

omit [Bus β] in
/-- Handlers that are entered while the flag stays as it is. -/
lemma entered_high {m m' d : Machine β} (same : d.cpu.entries = m.cpu.entries)
    (high : Cpu.HoldsHigh d.cpu m'.cpu) : ∀ e ∈ entered m m', e.high = m'.cpu.status.h := by
  obtain ⟨new, entered, stacked⟩ := high.entered
  intro e mem
  unfold Machine.entered at mem
  rw [entered, same, ← Array.length_toList, List.drop_left] at mem
  exact (stacked e mem).trans high.high_eq.symm

/-- What becomes of the high flag. It is set after an instruction exactly if the instruction flipped it: one
that leaves the status register alone ends with the flag clear, and so does one that finds the flag clear and
leaves it clear; one that finds it set and clears it ends with the flag set. A handler that the instruction
enters stacks the flag as the instruction leaves it, which is how it was before if the instruction writes no
status register; one that is entered when the instruction completes stacks the flag as it is from then on. -/
theorem high_flipped {m c : Machine β} {i : Instruction} (fetched : fetchNext.run m = (.ok i, c)) :
    let done := ((execute i).run c).2
    let after := m.move .instruction
    (after.cpu.status.h = true ↔ done.cpu.status.h ≠ m.cpu.status.h) ∧
    (¬i.WritesStatus → done.cpu.status.h = m.cpu.status.h) ∧
    (∀ e ∈ entered m done, e.high = done.cpu.status.h) ∧
    ∀ e ∈ entered done after, e.high = after.cpu.status.h := by
  intro done after
  have status := m.fetchNext_confined.2
  have entries := m.fetchNext_entries
  rw [fetched] at status entries
  have late := m.fetchNext_finds (Decode.decode_late _ _ _) (by rw [fetched]) i rfl
  obtain ⟨worked, works, ends⟩ := c.execute_outcome i
  have ending := ends.high late
  -- After its work the instruction may enter a handler; completing it flips the flag.
  let flipped := done.cpu.modifyStatus fun s => { s with h := s.h ^^ m.cpu.status.h }
  have completing : Cpu.HoldsHigh flipped after.cpu := by
    have finished := done.cpu.finish_high m.cpu.status.h
    show Cpu.HoldsHigh _ (m.move .instruction).cpu
    rw [move_instruction fetched]
    split
    · exact finished.trans (m.completed i c).checkInterrupts_high
    · exact finished
  refine ⟨?_, fun plain => ?_, ?_, ?_⟩
  · rw [completing.high_eq]
    show (done.cpu.status.h ^^ m.cpu.status.h) = true ↔ _
    exact bne_iff_ne
  · exact ending.high_eq.trans ((works.high plain).high_eq.trans (congrArg Status.h status))
  · exact entered_high (d := ⟨worked, c.bus⟩) ((Cpu.Worked.entries_eq works).trans entries) ending
  · exact entered_high (d := ⟨flipped, done.bus⟩) rfl completing

/-- A machine with the high flag set that is to clear it. -/
def beforeClear : Machine (DeviceBus FlatMemory) :=
  (powerOn Variant.e132t.config
    (({} : FlatMemory).loadHalves 0xfffffff8 [0x7914, 0x7514])).session [.host .reset, .slice 1]

/-- The instruction that clears the flag. -/
def clearHigh : Instruction := .logical .andNot ⟨.globals, Global.sr⟩ (.literal 0x20)

/-- A machine with the high flag set that is to trap. -/
def beforeHighTrap : Machine (DeviceBus FlatMemory) :=
  (powerOn Variant.e132t.config (({} : FlatMemory).loadHalves 0x1000 [0x7914, 0xff17])).session
    [.host .reset, .host (.setGlobal Global.pc 0x1000), .slice 1]

/-- The flag is set after the instruction that clears it, and a trap stacks it for the return. -/
theorem high_outlives :
    (fetchNext.run beforeClear).1 = .ok clearHigh ∧
    beforeClear.cpu.status.h = true ∧ (beforeClear.move .instruction).cpu.status.h = true ∧
    (fetchNext.run beforeHighTrap).1 = .ok (.trap 5 (some .always)) ∧
    beforeHighTrap.cpu.status.h = true ∧
    (entered beforeHighTrap (beforeHighTrap.move .instruction)).map Entry.high = [true] := by
  decide +kernel

/-- The flag is set after the instruction because the instruction has cleared it. -/
theorem high_flipped_by_clear :
    (fetchNext.run beforeClear).1 = .ok clearHigh ∧
    ((execute clearHigh).run (fetchNext.run beforeClear).2).2.cpu.status.h = false ∧
    (beforeClear.move .instruction).cpu.status.h = true := by
  have fetched : (fetchNext.run beforeClear).1 = .ok clearHigh := by decide +kernel
  have fetching : fetchNext.run beforeClear = (.ok clearHigh, (fetchNext.run beforeClear).2) := by
    rw [← fetched, Prod.eta]
  obtain ⟨flipped, -⟩ := high_flipped fetching
  have cleared : ((execute clearHigh).run (fetchNext.run beforeClear).2).2.cpu.status.h = false := by
    decide +kernel
  have before : beforeClear.cpu.status.h = true := by decide +kernel
  refine ⟨fetched, cleared, flipped.mpr ?_⟩
  rw [cleared, before]
  exact Bool.false_ne_true

end Machine

end E1Machine
