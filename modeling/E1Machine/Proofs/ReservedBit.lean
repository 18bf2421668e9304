import E1Machine.Bus.Flat
import E1Machine.Proofs.Confinement
import E1Machine.Proofs.Lockout
import E1Machine.Proofs.TimerWrites
import Mathlib.Data.List.Induction

/-!
# The reserved bit

Bit 6 of the status register is reserved, and every write of the register by its number clears it. A return
restores the register from a word that the program has put together, and masks nothing but the supervisor
flag and the instruction length: it is the one way to set the bit (`reserved_clear_iff`).
-/

namespace E1Machine

namespace Cpu

variable {i : Instruction} {c d : Cpu}

/-! ## What leaves the bit clear -/

/-- A write of a global register leaves the reserved bit clear. -/
lemma setGlobal_reserved (code : Nat) (value : Word) (clear : c.status.reserved = false) :
    (c.setGlobal code value).status.reserved = false := by
  obtain same | written := c.setGlobal_status code value
  · rw [same]
    exact clear
  · rw [written]
    rfl

/-- A write of any register leaves the reserved bit clear. -/
lemma write_reserved (o : Operand) (value : Word) (clear : c.status.reserved = false) :
    (c.write o value).status.reserved = false := by
  cases bank : o.bank with
  | globals =>
    unfold write
    rw [bank]
    exact setGlobal_reserved o.code value clear
  | locals =>
    unfold write
    rw [bank]
    exact clear

/-- The entry of a handler keeps the reserved bit. -/
lemma enterFrame_reserved (c : Cpu) (cause : EntryCause) (vector : Word) (length : BitVec 4) :
    (c.enterFrame cause vector length).status.reserved = c.status.reserved := by
  obtain ⟨e, -, -, status, -⟩ := c.enterFrame_frame cause vector length
  rw [status]
  rfl

/-- Whatever handler an instruction enters, it finds the reserved bit as it was. -/
lemma EntersBy.reserved_eq (enters : EntersBy i c d) : d.status.reserved = c.status.reserved := by
  cases enters with
  | trap => exact c.enterFrame_reserved _ _ _
  | @emulation byte dst src =>
    obtain ⟨e, -, -, status, -⟩ := c.enterEmulation_frame byte dst src
    rw [status]
    rfl
  | exception => exact c.enterFrame_reserved _ _ _

/-- No work but that of a return sets the bit. -/
lemma Work.reserved (work : Work i c d) (notRet : ∀ src, i ≠ .ret src)
    (clear : c.status.reserved = false) : d.status.reserved = false := by
  cases work with
  | flags keeps => exact (congrArg Status.reserved (keeps c.status)).trans clear
  | write target value => exact write_reserved _ value clear
  | branch target => rwa [jump_status]
  | call stacked target =>
    obtain ⟨locals, eq⟩ := fillFrame_changes stacked c _
    rw [eq]
    exact (congrArg Status.reserved (jump_status _ target)).trans clear
  | spill sp => exact (congrArg Status.reserved (Registers.status_setGlobal _ _ _ (by decide))).trans clear
  | resume address saved => exact absurd rfl (notRet _)
  | refill sp slot value => exact absurd rfl (notRet _)
  | _ => exact clear

/-- The work of an instruction other than a return leaves the reserved bit clear. -/
lemma Worked.reserved (worked : Worked i c d) (notRet : ∀ src, i ≠ .ret src)
    (clear : c.status.reserved = false) : d.status.reserved = false := by
  induction worked with
  | refl => exact clear
  | tail _ work ih => exact work.reserved notRet ih

/-- An instruction other than a return leaves the reserved bit clear. -/
lemma Outcome.reserved (outcome : Outcome i c d) (notRet : ∀ src, i ≠ .ret src)
    (clear : c.status.reserved = false) : d.status.reserved = false := by
  obtain ⟨e, worked, ends⟩ := outcome
  have done := worked.reserved notRet clear
  cases ends with
  | done => exact done
  | enters enters n => exact enters.reserved_eq.trans done
  | advances late value => exact write_reserved _ value ((e.enterFrame_reserved _ _ _).trans done)

/-! ## What leaves the bit alone -/

/-- An exception that may be raised keeps the reserved bit. -/
lemma raiseIf_reserved (c : Cpu) (condition : Bool) (exception : Exception) :
    (c.raiseIf condition exception).status.reserved = c.status.reserved := by
  cases condition with
  | false => rfl
  | true => exact c.enterFrame_reserved _ _ _

/-- The tasks after an instruction keep the reserved bit. -/
lemma finish_reserved (c : Cpu) (wasHigh : Bool) :
    (c.finish wasHigh).status.reserved = c.status.reserved := by
  obtain ⟨d, eq, finished⟩ := c.finish_cases wasHigh
  have same : d.status.reserved = c.status.reserved := by
    rw [eq]
    rfl
  obtain run | ⟨-, -, run⟩ := finished
  · rw [run]
    exact same
  · rw [run]
    exact (d.enterFrame_reserved _ _ _).trans same

/-- Taking an interrupt keeps the reserved bit. -/
lemma takeInterrupt_reserved (c : Cpu) (source : InterruptSource) :
    (c.takeInterrupt source).status.reserved = c.status.reserved :=
  enterFrame_reserved _ _ _ _

/-! ## The host -/

/-- The callback of the timer leaves the reserved bit clear. -/
lemma timerExpired_reserved (clear : c.status.reserved = false) :
    c.timerExpired.status.reserved = false := by
  refine timerExpired_keeps (Q := fun d => d.status.reserved = false) (fun called => ?_) id id clear
  cases called with
  | compares => exact clear
  | reloads => exact (congrArg Status.reserved (Registers.status_setGlobal _ _ _ (by decide))).trans clear

/-- A reset leaves the reserved bit clear. -/
lemma reset_reserved (clear : c.status.reserved = false) : c.reset.status.reserved = false := by
  rw [c.reset_recovered.status]
  exact clear

end Cpu

/-- No action of a host sets the reserved bit. -/
lemma HostAction.act_reserved {c : Cpu} (action : HostAction) (clear : c.status.reserved = false) :
    (action.act c).status.reserved = false := by
  cases action with
  | reset => exact Cpu.reset_reserved clear
  | setInput line on =>
    unfold act Cpu.setInput
    dsimp only
    split
    · exact (congrArg Status.reserved (Registers.status_setGlobal _ _ _ (by decide))).trans clear
    · exact clear
  | setGlobal code value => exact Cpu.setGlobal_reserved code value clear
  | setLocal code value => exact clear
  | advance cycles => exact clear
  | timerExpired => exact Cpu.timerExpired_reserved clear

namespace Machine

variable {β : Type} [Bus β]

/-! ## Instructions -/

/-- A return restores the bit with the rest of the register, and the handler of a privilege error keeps
it. -/
lemma ret_reserved (m : Machine β) (src : Operand) :
    ((execute (.ret src)).run m).2.cpu.status.reserved = (m.cpu.read src.next).getLsbD 6 := by
  obtain ⟨c, -, resumed, run⟩ := m.ret_cpu src
  show ((ret src).run m).2.cpu.status.reserved = _
  rw [run]
  refine (c.raiseIf_reserved (Cpu.breaksPrivilege m.cpu.status c.status) .privilege).trans ?_
  rw [resumed.status]
  rfl

/-- A look for interrupts keeps the reserved bit. -/
lemma checkInterrupts_reserved (m : Machine β) :
    (checkInterrupts.run m).2.cpu.status.reserved = m.cpu.status.reserved := by
  obtain ⟨-, run⟩ | ⟨source, bus, -, run⟩ := m.checkInterrupts_cases
  · rw [run]
  · rw [run]
    exact m.cpu.takeInterrupt_reserved source

/-- What completes an instruction leaves the bit as the instruction does. -/
lemma instruction_reserved {m c : Machine β} {i : Instruction} (fetched : fetchNext.run m = (.ok i, c)) :
    (m.move .instruction).cpu.status.reserved = ((execute i).run c).2.cpu.status.reserved := by
  have finished := ((execute i).run c).2.cpu.finish_reserved m.cpu.status.h
  rw [move_instruction fetched]
  split
  · exact (checkInterrupts_reserved _).trans finished
  · exact finished

/-! ## Runs -/

/-- Whether the next instruction is a return that restores a status register with the reserved bit set. -/
def RestoresReserved (m : Machine β) : Prop :=
  ∃ src c, fetchNext.run m = (.ok (.ret src), c) ∧ (c.cpu.read src.next).getLsbD 6 = true

/-- Every move but such a return leaves the bit clear. -/
lemma move_reserved {m : Machine β} (first : Move)
    (plain : first = .instruction → ¬ m.RestoresReserved) (clear : m.cpu.status.reserved = false) :
    (m.move first).cpu.status.reserved = false := by
  cases first with
  | host action => exact action.act_reserved clear
  | openSlice budget =>
    exact (checkInterrupts_reserved ⟨m.cpu.openSlice budget, m.bus⟩).trans clear
  | closeSlice => exact clear
  | instruction =>
    have status := m.fetchNext_confined.2
    obtain ⟨fault, c, fetched, stopped⟩ | ⟨i, c, fetched, -⟩ := m.executeOne_cases
    · rw [fetched] at status
      show (executeOne.run m).2.cpu.status.reserved = _
      rw [stopped]
      exact (congrArg Status.reserved status).trans clear
    · rw [fetched] at status
      rw [instruction_reserved fetched]
      -- Only a return writes the bit, with what it restores.
      by_cases returns : ∃ src, i = .ret src
      · obtain ⟨src, rfl⟩ := returns
        rw [ret_reserved]
        exact Bool.eq_false_iff.mpr fun restores => plain rfl ⟨src, c, fetched, restores⟩
      · exact (c.execute_outcome i).reserved (fun src eq => returns ⟨src, eq⟩)
          ((congrArg Status.reserved status).trans clear)

/-- The bit is clear at power-on, and stays clear through any moves of the host and the machine exactly if
none of them is a return that restores it. -/
theorem reserved_clear_iff (config : Config) (host : β) (moves : List Move) :
    (∀ before, before <+: moves →
      ((powerOn config host).follow before).cpu.status.reserved = false) ↔
    ∀ before, before ++ [.instruction] <+: moves →
      ¬ ((powerOn config host).follow before).RestoresReserved := by
  constructor
  · rintro clear before fits ⟨src, c, fetched, restores⟩
    have after := clear _ fits
    rw [follow_append] at after
    have set := instruction_reserved fetched
    rw [ret_reserved, restores] at set
    cases set.symm.trans after
  · intro plain before
    -- The induction is on the moves made so far, of which the last one decides.
    induction before using List.reverseRecOn with
    | nil => exact fun _ => rfl
    | append_singleton before last ih =>
      intro fits
      have clear := ih ((List.prefix_append before [last]).trans fits)
      rw [follow_append]
      refine move_reserved last ?_ clear
      rintro rfl
      exact plain before fits

/-- A machine that is about to return, with the reserved bit set in the status register to restore. -/
def reservedReturn : Machine (DeviceBus FlatMemory) :=
  (powerOn Variant.e132t.config (({} : FlatMemory).loadHalves 0x1000 [0x0502])).session
    [.host .reset, .host (.setGlobal Global.pc 0x1000), .host (.setLocal 2 0x2001),
      .host (.setLocal 3 0x00408041)]

/-- The return sets the reserved bit. -/
theorem reserved_restored :
    (fetchNext.run reservedReturn).1 = .ok (.ret ⟨.locals, 2⟩) ∧
    reservedReturn.cpu.status.reserved = false ∧
    (reservedReturn.session [.slice 1]).cpu.status.reserved = true ∧
    (reservedReturn.session [.slice 1]).cpu.regs.pc = 0x2000 := by
  decide +kernel

end Machine

end E1Machine
