import E1Machine.Proofs.Checked.Safety
import E1Machine.Proofs.DelaySlots

/-!
# Well-formed machines

What holds of a machine at all times. The program counter is even, and the stack pointer and the upper bound of the
stack are multiples of four. Only the eight input lines have bits in the input status register. A pending target is
even. A tick of the timer has 2 to 257 clocks at a scale that the device implements, and the tick base lies in the
past. The device keeps its configuration, and the RAM the size that it says.

Most of these are kept by each write on its own. The target is even because the program counter is, from which it is
reckoned; the scale is a part of the mask because the mask never changes.

Main statement: `Machine.reaches_wellFormed`, all moves of a machine keep them.
-/

namespace E1Machine

namespace Cpu

variable {c d : Cpu}

/-! ## The input lines -/

/-- Only the bits of the eight input lines are set in the input status register. -/
def Wired (c : Cpu) : Prop := (c.regs.global Global.isr).toNat < 256

/-- What leaves the input status register alone keeps it to the input lines. -/
lemma Wired.kept (same : d.regs.global Global.isr = c.regs.global Global.isr) (wired : c.Wired) : d.Wired := by
  unfold Wired
  rw [same]
  exact wired

/-- An entry leaves the input status register to the input lines. -/
lemma EntersFrame.wired {e : Entry} (enters : EntersFrame c e d) (wired : c.Wired) : d.Wired :=
  wired.kept (enters.globals Global.isr (by decide) (by decide))

/-- The entry of a handler leaves the input status register to the input lines. -/
lemma enterFrame_wired (cause : EntryCause) (vector : Word) (length : BitVec 4) (wired : c.Wired) :
    (c.enterFrame cause vector length).Wired := by
  obtain ⟨e, enters, -⟩ := c.enterFrame_frame cause vector length
  exact enters.wired wired

/-- The input status register follows the lines only: a write to it does nothing. -/
lemma setGlobal_isr (c : Cpu) (code : Nat) (value : Word) :
    (c.setGlobal code value).regs.global Global.isr = c.regs.global Global.isr := by
  by_cases named : code % 32 = Global.isr
  · unfold setGlobal
    rw [named]
    rfl
  · exact c.setGlobal_others named (by decide)

/-- No part of an instruction cycle changes the input status register. -/
lemma wired_lasting : Lasting Wired where
  begin wired := wired.kept (Registers.global_setPc _ _ (by decide))
  continueAt _ wired := wired.kept (Registers.global_setPc _ _ (by decide))
  redirect {c} wired := by
    rw [redirect_eq]
    cases c.delay.target with
    | none => exact wired
    | some target => exact wired.kept (Registers.global_setPc _ _ (by decide))
  modifyStatus _ wired := wired.kept (Registers.global_setStatus _ _ (by decide))
  setLocalAt _ _ wired := wired
  setSp _ wired := wired.kept ((Registers.global_setGlobal _ _ _ _).trans (if_neg (by decide)))
  setGlobal {c} code value wired := wired.kept (c.setGlobal_isr code value)
  jump _ wired := wired.kept (Registers.global_setPc _ _ (by decide))
  spend _ wired := wired
  block _ wired := wired
  report _ wired := wired
  enterTrap _ := enterFrame_wired _ _ _
  raise _ := enterFrame_wired _ _ _
  enterEmulation {c} byte dst src wired := by
    obtain ⟨e, enters, -⟩ := c.enterEmulation_frame byte dst src
    exact enters.wired wired
  resume _ _ wired := wired.kept
    ((Registers.global_setStatus _ _ (by decide)).trans (Registers.global_setPc _ _ (by decide)))
  delayTo _ wired := wired
  setHigh _ wired := wired.kept (Registers.global_setStatus _ _ (by decide))
  retire wired := wired
  takeInterrupt _ wired := by
    unfold takeInterrupt
    exact enterFrame_wired _ _ _ (wired.kept rfl)

/-- A line that is driven sets or clears its own bit. -/
lemma Wired.setInput (wired : c.Wired) (line : Nat) (on : Bool) : (c.setInput line on).Wired := by
  unfold Cpu.setInput
  dsimp only
  split
  · next inside =>
    have written (value : Word) : (c.store Global.isr value).regs.global Global.isr = value :=
      (Registers.global_setGlobal _ _ _ _).trans (if_pos rfl)
    unfold Wired
    rw [written]
    cases on with
    | true =>
      have bit : (1#32 <<< line).toNat < 2 ^ inputCount := by
        have small : 2 ^ line < 2 ^ inputCount := Nat.pow_lt_pow_right (Nat.lt_succ_self 1) inside
        rw [BitVec.toNat_shiftLeft, Nat.shiftLeft_eq, BitVec.toNat_ofNat, Nat.one_mod, Nat.one_mul]
        exact Nat.lt_of_le_of_lt (Nat.mod_le _ _) small
      exact Nat.or_lt_two_pow (n := inputCount) wired bit
    | false => exact Nat.lt_of_le_of_lt Nat.and_le_left wired
  · exact wired

/-- Serving the timer leaves the input status register to the input lines. -/
lemma Wired.timerExpired (wired : c.Wired) : c.timerExpired.Wired := by
  have rescheduled {c : Cpu} (wired : c.Wired) : c.reschedule.Wired := by
    obtain ⟨deadline, scheduled⟩ := c.reschedule_changes
    rw [scheduled]
    exact wired
  refine timerExpired_keeps (fun called => ?_) rescheduled (fun wired => wired) wired
  cases called with
  | compares => exact wired
  | reloads => exact wired.kept ((Registers.global_setGlobal _ _ _ _).trans (if_neg (by decide)))

/-- All that a host does leaves the input status register to the input lines. -/
lemma Wired.act (wired : c.Wired) (action : HostAction) : (action.act c).Wired := by
  cases action with
  | reset => exact wired.kept (c.reset_recovered.globals Global.isr (by decide))
  | setInput line on => exact wired.setInput line on
  | setGlobal code value => exact wired.kept (c.setGlobal_isr code value)
  | setLocal code value => exact wired
  | advance cycles => exact wired
  | timerExpired => exact wired.timerExpired

/-- All moves of a machine leave the input status register to the input lines. -/
lemma Wired.reaches {β : Type} [Bus β] {m m' : Machine β} (wired : m.cpu.Wired) (reaches : m.Reaches m') :
    m'.cpu.Wired :=
  wired_lasting.reaches (fun _ wired => wired) (fun _ wired => wired) (fun wired => wired)
    (fun action wired => wired.act action) reaches wired

/-! ## The scale -/

/-- A prescale cuts the scale to the bits that the device implements. -/
lemma cut_submask (mask : Word) (scale : BitVec 5) :
    (scale &&& mask.setWidth 5).setWidth 32 &&& mask = (scale &&& mask.setWidth 5).setWidth 32 := by
  apply BitVec.eq_of_getLsbD_eq
  intro i inside
  rw [BitVec.getLsbD_and, BitVec.getLsbD_setWidth, BitVec.getLsbD_and, BitVec.getLsbD_setWidth]
  cases mask.getLsbD i <;> simp

/-- The bits of the scale are among those that the timer implements. -/
def Submasked (c : Cpu) : Prop := c.timer.scale.setWidth 32 &&& c.timer.scaleMask = c.timer.scale.setWidth 32

/-- All moves of a machine leave the scale to the bits that the timer implements. -/
lemma Submasked.follow {β : Type} [Bus β] {m : Machine β} (submasked : m.cpu.Submasked) (moves : List Move) :
    (m.follow moves).cpu.Submasked :=
  Machine.follow_prescaled (T := fun mask scale _ => scale.setWidth 32 &&& mask = scale.setWidth 32)
    (fun mask tpr => cut_submask mask (tpr.extractLsb' 26 5)) moves submasked

/-! ## Well-formed processors -/

/-- What holds of a processor at all times. The mask has the scales that its device implements. -/
structure WellFormed (mask : Word) (c : Cpu) : Prop extends Aligned c, Based c where
  isr : (c.regs.global Global.isr).toNat < 256
  target : ∀ target, c.delay.target = some target → target.toNat % 2 = 0
  brief : c.timer.period ≤ 257
  implemented : c.timer.scaleMask = mask
  scale : c.timer.scale.setWidth 32 &&& c.timer.scaleMask = c.timer.scale.setWidth 32

/-- A scale of these bits is no greater than the mask. -/
lemma WellFormed.scaled {mask : Word} (wellFormed : c.WellFormed mask) : c.Scaled mask := by
  refine ⟨wellFormed.implemented, ?_⟩
  have widened : (c.timer.scale.setWidth 32).toNat = c.timer.scale.toNat :=
    BitVec.toNat_setWidth_of_le (by decide)
  rw [← widened, ← wellFormed.scale, wellFormed.implemented, BitVec.toNat_and]
  exact Nat.and_le_right

/-- A processor is well-formed when it is powered on. -/
lemma powerOn_wellFormed (config : Config) : (powerOn config).WellFormed config.clockScaleMask where
  toAligned := powerOn_aligned config
  begun := Nat.le_refl _
  period := Nat.le_refl _
  isr := by
    have zero : (powerOn config).regs.global Global.isr = 0 := Vector.getElem_replicate _
    rw [zero]
    decide
  target := nofun
  brief := (by decide : 2 ≤ 257)
  implemented := rfl
  scale := BitVec.zero_and

end Cpu

/-! ## The RAM of a device -/

/-- A bus that answers as another keeps the states that stand for states of the other. -/
lemma AnswersAlike.serves {β β' : Type} [Bus β] [Bus β'] {S : β → β' → Prop} (alike : AnswersAlike S) :
    Serves fun b' => ∃ b, S b b' where
  readByte addr := fun ⟨_, s⟩ => ⟨_, (alike.readByte addr s).2⟩
  readHalf _ := fun ⟨_, s⟩ => ⟨_, (alike.readHalf _ s).2⟩
  readWord _ := fun ⟨_, s⟩ => ⟨_, (alike.readWord _ s).2⟩
  writeByte addr value := fun ⟨_, s⟩ => ⟨_, (alike.writeByte addr value s).2⟩
  writeHalf _ value := fun ⟨_, s⟩ => ⟨_, (alike.writeHalf _ value s).2⟩
  writeWord _ value := fun ⟨_, s⟩ => ⟨_, (alike.writeWord _ value s).2⟩
  fetch _ := fun ⟨_, s⟩ => ⟨_, (alike.fetch _ s).2⟩
  ioReadWord addr := fun ⟨_, s⟩ => ⟨_, (alike.ioReadWord addr s).2⟩
  ioWriteWord addr value := fun ⟨_, s⟩ => ⟨_, (alike.ioWriteWord addr value s).2⟩
  acknowledge line := fun ⟨_, s⟩ => ⟨_, (alike.acknowledge line s).2⟩

namespace Machine

variable {β : Type} [Bus β] {config : Config}

/-- The machine of a device with a well-formed processor, and a RAM of the size that its configuration says. -/
structure WellFormed (config : Config) (m : Machine (DeviceBus β)) : Prop where
  cpu : m.cpu.WellFormed config.clockScaleMask
  bus : Checked.Fits config m.bus

omit [Bus β] in
/-- The on-chip RAM of a well-formed machine has the size that its configuration says. -/
lemma WellFormed.ram {m : Machine (DeviceBus β)} (wellFormed : m.WellFormed config) :
    m.bus.iram.size = config.iramSize.bytes := by
  obtain ⟨full, same⟩ := wellFormed.bus
  unfold DeviceBus.Full at full
  rw [same] at full
  exact full

omit [Bus β] in
/-- A machine is well-formed when it is powered on. -/
lemma powerOn_wellFormed (config : Config) (host : β) : (powerOn config host).WellFormed config :=
  ⟨Cpu.powerOn_wellFormed config, Iram.size_zeros _, rfl⟩

/-- All that happens to a machine leaves it well-formed: what its host does, and every program on every host bus. -/
theorem reaches_wellFormed {m m' : Machine (DeviceBus β)} (reaches : m.Reaches m')
    (wellFormed : m.WellFormed config) : m'.WellFormed config := by
  obtain ⟨cpu, fits⟩ := wellFormed
  -- The device answers as the checked one does, on which no access leaves the RAM.
  obtain ⟨aligned, b, -, fits'⟩ := reaches_served (CheckedBus.answersAlike config).serves reaches
    ⟨cpu.toAligned, ⟨some m.bus⟩, rfl, fits⟩
  have even := reaches_evenTarget reaches ⟨cpu.toAligned, trivial⟩ cpu.target
  have wired := Cpu.Wired.reaches cpu.isr reaches
  obtain ⟨implemented, -⟩ := cpu.scaled.reaches reaches
  obtain ⟨moves, rfl⟩ := reaches
  exact ⟨{
    toAligned := aligned
    toBased := cpu.toBased.follow moves
    isr := wired
    target := even
    brief := Cpu.Brief.follow cpu.brief moves
    implemented := implemented
    scale := Cpu.Submasked.follow cpu.scale moves }, fits'⟩

end Machine

end E1Machine
