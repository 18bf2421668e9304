import E1Machine.Proofs.Resetting

/-!
# Clock scales

The scale of the timer multiplies every cost. It is masked by the bits that the device implements, each
time a prescaler value takes effect, so it never exceeds the mask (`Cpu.Reachable.scaled`). The argument
is the one for every property that holds before the first reset and survives each move of a machine:
`Lasting.reaches` carries it along moves, `Cpu.Reachable` to whatever a host can bring about.
-/

namespace E1Machine

namespace Cpu

/-- An invariant of instruction cycles that a stop, the host and the bounds of slices keep survives all
moves. -/
lemma Lasting.reaches {β : Type} [Bus β] {P : Cpu → Prop} (h : Lasting P)
    (stop : ∀ {c : Cpu} (fault : Fault), P c → P (c.stop fault))
    (openSlice : ∀ {c : Cpu} (budget : Nat), P c → P (c.openSlice budget))
    (closeSlice : ∀ {c : Cpu}, P c → P c.closeSlice)
    (act : ∀ {c : Cpu} (action : HostAction), P c → P (action.act c))
    {m m' : Machine β} (reaches : Machine.Reaches m m') (p : P m.cpu) : P m'.cpu := by
  obtain ⟨moves, rfl⟩ := reaches
  induction moves generalizing m with
  | nil => exact p
  | cons first moves ih =>
    apply ih
    cases first with
    | host action => exact act action p
    | openSlice budget => exact h.checkInterrupts (m := ⟨m.cpu.openSlice budget, m.bus⟩) (openSlice _ p)
    | instruction => exact h.executeOne_stop stop p
    | closeSlice => exact closeSlice p

/-- The processors that a host can bring about from power-on: it may write the register banks as it likes,
and make any call on any bus. -/
inductive Reachable (config : Config) : Cpu → Prop where
  | powerOn : Reachable config (powerOn config)
  | modifyRegs {c : Cpu} (f : Registers → Registers) :
    Reachable config c → Reachable config (c.modifyRegs f)
  | call {β : Type} [Bus β] {m : Machine β} (call : Call) :
    Reachable config m.cpu → Reachable config (m.call call).cpu

/-- The timer runs at a scale that the device implements. -/
def Scaled (mask : Word) (c : Cpu) : Prop :=
  c.timer.scaleMask = mask ∧ c.timer.scale.toNat ≤ mask.toNat

variable {mask : Word} {c : Cpu}

/-- Scheduling a callback keeps the scale under the mask. -/
lemma Scaled.reschedule (scaled : c.Scaled mask) : c.reschedule.Scaled mask := by
  obtain ⟨deadline, scheduled⟩ := c.reschedule_changes
  rw [scheduled]
  exact scaled

/-- A prescaler value is cut to the mask when it takes effect. -/
lemma Scaled.applyPrescale (scaled : c.Scaled mask) (tpr : Word) :
    (c.applyPrescale tpr).Scaled mask := by
  obtain ⟨same, -⟩ := scaled
  refine ⟨same, ?_⟩
  show (tpr.extractLsb' 26 5 &&& c.timer.scaleMask.setWidth 5).toNat ≤ mask.toNat
  rw [same, BitVec.toNat_and, BitVec.toNat_setWidth]
  exact Nat.le_trans Nat.and_le_right (Nat.mod_le _ _)

/-- A write of a global register keeps the scale under the mask, as the timer cuts what is written. -/
lemma Scaled.setGlobal (scaled : c.Scaled mask) (code : Nat) (value : Word) :
    (c.setGlobal code value).Scaled mask := by
  have stored (code : Nat) : (c.store code value).Scaled mask := scaled
  unfold Cpu.setGlobal
  split
  -- Only the prescaler register and the registers of the schedule reach the timer.
  case h_5 =>
    unfold writePrescaler
    split
    · exact (stored _).reschedule
    · exact (scaled.applyPrescale value).reschedule
  case h_6 =>
    unfold writeCompare
    split
    · exact scaled
    · exact (stored _).reschedule
  case h_7 =>
    exact Scaled.reschedule (c := { (c.store Global.tr value) with
      timer := (c.store Global.tr value).timer.rebase (c.store Global.tr value).cycles value }) scaled
  case h_9 =>
    unfold writeControl
    dsimp only
    split
    · exact (stored _).reschedule
    · exact scaled
  case h_10 =>
    unfold writeMemoryControl
    dsimp only
    split <;> exact scaled
  all_goals exact scaled

/-- The entry of a handler keeps the scale under the mask. -/
lemma Enters.scaled {d : Cpu} (enters : Enters c d) (scaled : c.Scaled mask) : d.Scaled mask := by
  obtain ⟨regs, lastPc, n, e, -, -, -, rfl⟩ := enters
  exact scaled

/-- Every part of an instruction cycle keeps the scale under the mask. -/
lemma scaled_lasting (mask : Word) : Lasting (Scaled mask) where
  begin p := p
  continueAt _ p := p
  redirect {c} p := by
    rw [redirect_eq]
    exact p
  modifyStatus _ p := p
  setLocalAt _ _ p := p
  setSp _ p := p
  setGlobal code value p := p.setGlobal code value
  jump _ p := p
  spend _ p := p
  block _ p := p
  report _ p := p
  enterTrap {c} number := (c.enterTrap_enters number).scaled
  raise {c} exception := (c.raise_enters exception).scaled
  enterEmulation {c} byte dst src := (c.enterEmulation_enters byte dst src).scaled
  resume _ _ p := p
  delayTo _ p := p
  setHigh _ p := p
  retire p := p
  takeInterrupt {c} source p := by
    unfold Cpu.takeInterrupt
    refine (enterFrame_enters _ _ _ _).scaled ?_
    cases source with
    | timer => exact p
    | line => exact p

/-- The callback of the timer keeps the scale under the mask. -/
lemma Scaled.timerExpired (scaled : c.Scaled mask) : c.timerExpired.Scaled mask := by
  unfold Cpu.timerExpired Timer.takeDeadline
  cases c.timer.deadline with
  | none => exact scaled
  | some deadline =>
    have taken : Scaled mask { c with timer := { c.timer with deadline := none } } := scaled
    dsimp only
    generalize applied : (if deadline.reloadPrescale then _ else _) = d
    have kept : d.Scaled mask := by
      rw [← applied]
      split
      · exact taken.applyPrescale _
      · exact taken
    split
    · exact kept.reschedule
    · exact kept

/-- A reset keeps the scale under the mask. -/
lemma Scaled.reset (scaled : c.Scaled mask) : c.reset.Scaled mask := by
  have recovered := c.reset_recovered
  refine ⟨recovered.mask.trans scaled.1, ?_⟩
  rw [recovered.scale, scaled.1, BitVec.toNat_and]
  exact Nat.and_le_right

/-- No action of a host leads to a scale beyond the mask. -/
lemma Scaled.act (scaled : c.Scaled mask) (action : HostAction) : (action.act c).Scaled mask := by
  cases action with
  | reset => exact scaled.reset
  | setInput line on =>
    unfold HostAction.act Cpu.setInput
    dsimp only
    split <;> exact scaled
  | setGlobal code value => exact scaled.setGlobal code value
  | setLocal code value => exact scaled
  | advance cycles => exact scaled
  | timerExpired => exact scaled.timerExpired

/-- No sequence of moves leads to a scale beyond the mask. -/
lemma Scaled.reaches {β : Type} [Bus β] {m m' : Machine β} (scaled : m.cpu.Scaled mask)
    (reaches : Machine.Reaches m m') : m'.cpu.Scaled mask :=
  (scaled_lasting mask).reaches (fun _ p => p) (fun _ p => p) (fun p => p)
    (fun action p => p.act action) reaches scaled

/-- No host can make the timer run at a scale that its device lacks. -/
theorem Reachable.scaled {config : Config} (reachable : Reachable config c) :
    c.Scaled config.clockScaleMask := by
  induction reachable with
  | powerOn => exact ⟨rfl, Nat.zero_le _⟩
  | modifyRegs f _ ih => exact ih
  | @call β _ m call _ ih => exact ih.reaches (m.call_reaches call)

end Cpu

end E1Machine
