import E1Machine.Proofs.Priorities
import E1Machine.Proofs.RegisterStack

/-!
# Room in the register bank

The bank holds the stack words from the stack pointer to the end of the frame. `FRAME` spills until there are
at most 54 of them, which leaves ten registers free: more than any entry fills. `RET` refills until the frame
of the caller starts at the stack pointer or above. Both count in seven bits, so no frame pointer and no stack
pointer makes them spill or refill more than the whole bank.

Main statement: `Machine.bank_keeps_room`.
-/

namespace E1Machine

/-! ## Counts of seven bits -/

/-- The slot of the stack word that lies so many words further up. -/
lemma stackSlot_add (sp : Word) (n : Nat) :
    stackSlot (sp + BitVec.ofNat 32 (4 * n)) = stackSlot sp + BitVec.ofNat 7 n := by
  apply BitVec.eq_of_toNat_eq
  simp only [stackSlot, BitVec.extractLsb'_toNat, BitVec.toNat_add, BitVec.toNat_ofNat,
    Nat.shiftRight_eq_div_pow]
  omega

/-- Lowering the stack pointer by words lowers its slot by as many. -/
lemma stackSlot_sub (sp : Word) (n : Nat) :
    stackSlot (sp - BitVec.ofNat 32 (4 * n)) = stackSlot sp - BitVec.ofNat 7 n := by
  rw [BitVec.eq_sub_iff_add_eq, ← stackSlot_add, BitVec.sub_add_cancel]

/-- Spilling stops exactly where 54 words are left, unless there are fewer from the start. -/
lemma spilled_le : ∀ free : BitVec 7,
    (54 - free - BitVec.ofNat 7 (-free.toInt).toNat).toInt ≤ 54 := by
  decide

/-- Refilling stops exactly at the frame, unless it lies higher from the start. -/
lemma refilled_nonneg : ∀ above : BitVec 7,
    0 ≤ (above + BitVec.ofNat 7 (-above.toInt).toNat).toInt := by
  decide

/-- How many words of the stack lie between a stack pointer and the end of the frame. -/
def Status.bankWords (s : Status) (sp : Word) : Int :=
  (s.fp + BitVec.ofNat 7 s.frameLength - stackSlot sp).toInt

/-- Up to nine registers behind the end of a frame are none of the 54 words from the stack pointer up to it. -/
lemma localSlot_ne_stackCell {fp : BitVec 7} {sp : Word} {j k : Nat} (few : k < 10)
    (room : (fp - stackSlot sp).toInt ≤ 54) (inside : j < (fp - stackSlot sp).toInt) :
    localSlot k fp.toNat ≠ stackCell (sp + BitVec.ofNat 32 (4 * j)) := by
  intro same
  have slots := congrArg Fin.val same
  have slot : (stackSlot sp).toNat = sp.toNat / 4 % 128 := by
    simp only [stackSlot, BitVec.extractLsb'_toNat, Nat.shiftRight_eq_div_pow]
  have difference := BitVec.toNat_sub fp (stackSlot sp)
  rw [BitVec.toInt_eq_toNat_cond, difference, slot] at room inside
  simp only [localSlot, stackCell, Fin.val_ofNat, BitVec.toNat_add, BitVec.toNat_ofNat] at slots
  have small := fp.isLt
  omega

namespace Cpu

/-! ## Entries -/

/-- A way to enter a handler. -/
inductive HandlerEntry where
  | trap (number : Nat)
  | interrupt (source : InterruptSource)
  | exception (exception : Exception)
  | emulation (byte : Byte) (dst src : Nat)

/-- Enters a handler. -/
def enter (c : Cpu) : HandlerEntry → Cpu
  | .trap number => c.enterTrap number
  | .interrupt source => c.takeInterrupt source
  | .exception exception => c.raise exception
  | .emulation byte dst src => c.enterEmulation byte dst src

/-- Every entry fills five registers at most. -/
lemma enter_frame (c : Cpu) (how : HandlerEntry) :
    ∃ e : Entry, EntersFrame c e (c.enter how) ∧ e.stacked.length ≤ 5 := by
  cases how with
  | trap number =>
    obtain ⟨e, enters, stacked, -⟩ := c.enterFrame_frame (.trap number) (c.entry.vector number) 6
    exact ⟨e, enters, by rw [stacked]; simp⟩
  | interrupt source =>
    obtain ⟨e, enters, -, stacked⟩ := (c.takeInterrupt_takes source).entry
    exact ⟨e, enters, by rw [stacked]; simp⟩
  | exception exception =>
    obtain ⟨e, enters, stacked⟩ := c.raise_frame exception
    exact ⟨e, enters, by rw [stacked]; simp⟩
  | emulation byte dst src =>
    obtain ⟨e, enters, stacked, -⟩ := c.enterEmulation_frame byte dst src
    exact ⟨e, enters, by rw [stacked]; simp⟩

/-- An entry leaves the stack words in the bank alone if ten registers are free: what it fills lies behind the
end of the frame, and less than the whole bank ahead of the stack pointer. -/
lemma enter_bank_kept (c : Cpu) (how : HandlerEntry) {sp : Word} (room : c.status.bankWords sp ≤ 54)
    {j : Nat} (inside : j < c.status.bankWords sp) :
    (c.enter how).regs.localAt (stackCell (sp + BitVec.ofNat 32 (4 * j))) =
      c.regs.localAt (stackCell (sp + BitVec.ofNat 32 (4 * j))) := by
  obtain ⟨e, enters, few⟩ := c.enter_frame how
  have next : (c.enter how).status.fp = c.status.fp + BitVec.ofNat 7 c.status.frameLength :=
    enters.fp.trans enters.frame
  unfold Status.bankWords at room inside
  rw [← next] at room inside
  exact enters.localAt fun k filled => localSlot_ne_stackCell (by omega) room inside

end Cpu

namespace Cpu

/-- What is spilled leaves 54 words at most. -/
lemma spilled_room (c : Cpu) :
    c.status.bankWords (c.regs.sp + BitVec.ofNat 32 (4 * c.spillCount)) ≤ 54 := by
  have room := spilled_le (stackSlot c.regs.sp + 54 - c.status.fp -
    BitVec.ofNat 7 c.status.frameLength)
  have regrouped (slot fp length n : BitVec 7) :
      fp + length - (slot + n) = 54 - (slot + 54 - fp - length) - n := by
    ring
  unfold Status.bankWords
  rw [stackSlot_add, regrouped]
  exact room

/-- What is refilled brings the stack pointer down to the frame. -/
lemma refilled_above (c : Cpu) :
    0 ≤ (c.status.fp - stackSlot (c.regs.sp - BitVec.ofNat 32 (4 * c.refillCount))).toInt := by
  have above := refilled_nonneg (c.status.fp - stackSlot c.regs.sp)
  have regrouped (slot fp n : BitVec 7) : fp - (slot - n) = fp - slot + n := by
    ring
  rw [stackSlot_sub, regrouped]
  exact above

end Cpu

/-! ## Moves of the stack pointer -/

/-- The stack pointer has been moved, in the same frame and without an entry. -/
structure Cpu.Slides (c : Cpu) (sp : Word) (d : Cpu) : Prop where
  status : d.status = c.status
  sp : d.regs.sp = sp
  entries : d.entries = c.entries

namespace Machine

variable {β : Type} [Bus β]

omit [Bus β] in
/-- An action that moves the stack pointer by a step moves it by so many steps when it is repeated. -/
lemma times_slides {x : Exec β Unit} {step : Word}
    (once : ∀ m : Machine β, m.cpu.Slides (m.cpu.regs.sp + step) (x.run m).2.cpu) (n : Nat) :
    ∀ m : Machine β, m.cpu.Slides (m.cpu.regs.sp + BitVec.ofNat 32 n * step)
      ((times n x).run m).2.cpu := by
  induction n with
  | zero => exact fun m => ⟨rfl, by rw [BitVec.zero_mul, BitVec.add_zero]; rfl, rfl⟩
  | succ n ih =>
    intro m
    have first := once m
    have rest := ih (x.run m).2
    refine ⟨rest.status.trans first.status, rest.sp.trans ?_, rest.entries.trans first.entries⟩
    rw [first.sp, BitVec.ofNat_add, BitVec.add_mul, BitVec.one_mul, BitVec.add_assoc,
      BitVec.add_comm step]

/-- A spill moves the stack pointer up by a word. -/
lemma spill_slides (m : Machine β) : m.cpu.Slides (m.cpu.regs.sp + 4) (spill.run m).2.cpu where
  status := Registers.status_setGlobal _ _ _ (by decide)
  sp := Registers.sp_setSp _ _
  entries := rfl

/-- A refill moves the stack pointer down by a word. -/
lemma refill_slides (m : Machine β) : m.cpu.Slides (m.cpu.regs.sp + -4) (refill.run m).2.cpu where
  status := Registers.status_setGlobal _ _ _ (by decide)
  sp := (Registers.sp_setSp _ _).trans (BitVec.sub_eq_add_neg _ _)
  entries := rfl

/-- Spills move the stack pointer up by as many words. -/
lemma spills_slides (n : Nat) (m : Machine β) :
    m.cpu.Slides (m.cpu.regs.sp + BitVec.ofNat 32 (4 * n)) ((times n spill).run m).2.cpu := by
  have steps : BitVec.ofNat 32 n * 4 = BitVec.ofNat 32 (4 * n) := by
    rw [Nat.mul_comm, BitVec.ofNat_mul]
    rfl
  rw [← steps]
  exact times_slides spill_slides n m

/-- Refills move the stack pointer down by as many words. -/
lemma refills_slides (n : Nat) (m : Machine β) :
    m.cpu.Slides (m.cpu.regs.sp - BitVec.ofNat 32 (4 * n)) ((times n refill).run m).2.cpu := by
  have steps : BitVec.ofNat 32 n * -4 = -BitVec.ofNat 32 (4 * n) := by
    rw [Nat.mul_comm, BitVec.ofNat_mul, BitVec.mul_neg]
    rfl
  rw [BitVec.sub_eq_add_neg, ← steps]
  exact times_slides refill_slides n m

/-! ## Frames and returns -/

/-- In `after` a frame has been opened. -/
structure Opens (back length : BitVec 4) (m after : Machine β) : Prop where
  spills : ∃ n ≤ 64, ∃ overflows : Bool,
    let spilled := ((times n spill).run ⟨m.cpu.reframe back length, m.bus⟩).2
    after = ⟨(spilled.cpu.raiseIf overflows .frame).charge .controlTransfer, spilled.bus⟩
  room (noError : after.cpu.entries = m.cpu.entries) :
    after.cpu.status.bankWords after.cpu.regs.sp ≤ 54
  reserve (noError : after.cpu.entries = m.cpu.entries) {c : Cpu}
    (sameFrame : c.status.fp = after.cpu.status.fp ∧ c.status.fl = after.cpu.status.fl)
    (how : Cpu.HandlerEntry) {j : Nat} (inside : j < after.cpu.status.bankWords after.cpu.regs.sp) :
    (c.enter how).regs.localAt (stackCell (after.cpu.regs.sp + BitVec.ofNat 32 (4 * j))) =
      c.regs.localAt (stackCell (after.cpu.regs.sp + BitVec.ofNat 32 (4 * j)))

/-- In `after` a return has been made through the pair at `src`. -/
structure Returns (src : Operand) (m after : Machine β) : Prop where
  refills : ∃ n ≤ 64, ∃ breaks : Bool,
    let refilled := ((times n refill).run
      ⟨m.cpu.resume (m.cpu.read src) (m.cpu.read src.next), m.bus⟩).2
    after = ⟨(refilled.cpu.raiseIf breaks .privilege).charge .controlTransfer, refilled.bus⟩ ∧
      (after.cpu.entries = m.cpu.entries →
        after.cpu.regs.sp = m.cpu.regs.sp - BitVec.ofNat 32 (4 * n))
  above (noError : after.cpu.entries = m.cpu.entries) :
    0 ≤ (after.cpu.status.fp - stackSlot after.cpu.regs.sp).toInt

/-- If no error is raised, the processor has only been charged since the stack pointer was moved. -/
lemma slides_of_quiet {c d : Cpu} {sp : Word} {condition : Bool} {exception : Exception}
    {kind : CostClass} (slid : c.Slides sp d)
    (noError : ((d.raiseIf condition exception).charge kind).entries = c.entries) :
    c.Slides sp ((d.raiseIf condition exception).charge kind) := by
  rw [raiseIf_eq_self (noError.trans slid.entries.symm)]
  exact ⟨slid.status, slid.sp, slid.entries⟩

/-- What opens a frame spills the registers for which the bank has no room and leaves ten slots for an entry. -/
lemma frame_opens (m : Machine β) (back length : BitVec 4) :
    Opens back length m ((execute (.frame back length)).run m).2 := by
  obtain ⟨c, overflows, eq, run⟩ := m.frame_spills back length
  have entries : m.cpu.entries = c.entries := by
    rw [eq]
    rfl
  -- Up to here the number of spills has its two bounds; from here on it is any number with these.
  have few := c.spillCount_le
  have left := c.spilled_room
  generalize c.spillCount = n at run few left
  have slid := spills_slides n ⟨c, m.bus⟩
  have ended : ((execute (.frame back length)).run m).2 = _ := congrArg Prod.snd run
  rw [ended]
  generalize named : ((times n spill).run ⟨c, m.bus⟩).2 = spilled at slid
  have quiet (noError : ((spilled.cpu.raiseIf overflows .frame).charge .controlTransfer).entries =
      m.cpu.entries) := slides_of_quiet slid (noError.trans entries)
  refine ⟨⟨n, few, overflows, by rw [← eq, named]⟩, fun noError => ?_, ?_⟩
  · rw [(quiet noError).status, (quiet noError).sp]
    exact left
  · intro noError d sameFrame how j inside
    -- A later processor in the same frame counts its words as this one does.
    have same (sp : Word) : d.status.bankWords sp = c.status.bankWords sp := by
      unfold Status.bankWords Status.frameLength
      rw [sameFrame.1, sameFrame.2, (quiet noError).status]
    rw [(quiet noError).status, (quiet noError).sp, ← same] at inside
    rw [(quiet noError).sp]
    exact d.enter_bank_kept how (by rw [same]; exact left) inside

/-- A return refills what was spilled of the caller's frame. -/
lemma ret_returns (m : Machine β) (src : Operand) :
    Returns src m ((execute (.ret src)).run m).2 := by
  obtain ⟨c, eq, run⟩ := m.ret_refills src
  have entries : m.cpu.entries = c.entries := by
    rw [eq]
    rfl
  have sp : c.regs.sp = m.cpu.regs.sp := by
    rw [eq]
    refine (Registers.global_setStatus _ _ (by decide)).trans ?_
    exact Registers.global_setPc _ _ (by decide)
  have few := c.refillCount_le
  have above := c.refilled_above
  generalize c.refillCount = n at run few above
  have slid := refills_slides n ⟨c, m.bus⟩
  have ended : ((execute (.ret src)).run m).2 = _ := congrArg Prod.snd run
  rw [ended]
  generalize named : ((times n refill).run ⟨c, m.bus⟩).2 = refilled at slid
  generalize Cpu.breaksPrivilege m.cpu.status refilled.cpu.status = breaks
  have quiet (noError : ((refilled.cpu.raiseIf breaks .privilege).charge .controlTransfer).entries =
      m.cpu.entries) := slides_of_quiet slid (noError.trans entries)
  refine ⟨⟨n, few, breaks, by rw [← eq, named], fun noError => ?_⟩, fun noError => ?_⟩
  · rw [(quiet noError).sp, sp]
  · rw [(quiet noError).status, (quiet noError).sp]
    exact above

/-- `FRAME` spills at most the whole bank and leaves room for an entry, whatever the frame and the stack pointer,
unless it raises a frame error. `RET` refills at most the whole bank and brings the stack pointer down to the
frame, unless it raises a privilege error. -/
theorem bank_keeps_room (m : Machine β) :
    (∀ back length, Opens back length m ((execute (.frame back length)).run m).2) ∧
    ∀ src, Returns src m ((execute (.ret src)).run m).2 :=
  ⟨m.frame_opens, m.ret_returns⟩

/-- Twelve words are spilled from a bank that is too full, and a trap that follows keeps the 54 that are left. -/
theorem fullBank_opened :
    let after := ((execute (.frame 0 6)).run fullBank).2
    after.cpu.entries = fullBank.cpu.entries ∧ after.cpu.status.bankWords after.cpu.regs.sp = 54 ∧
      ∀ j < 54, (after.cpu.enterTrap 32).regs.localAt
          (stackCell (after.cpu.regs.sp + BitVec.ofNat 32 (4 * j))) =
        after.cpu.regs.localAt (stackCell (after.cpu.regs.sp + BitVec.ofNat 32 (4 * j))) := by
  intro after
  have noError : after.cpu.entries = fullBank.cpu.entries := by decide +kernel
  have full : after.cpu.status.bankWords after.cpu.regs.sp = 54 := by decide +kernel
  have opens : Opens 0 6 fullBank after := (bank_keeps_room fullBank).1 0 6
  clear_value after
  refine ⟨noError, full, fun j inside => ?_⟩
  refine opens.reserve noError ⟨rfl, rfl⟩ (.trap 32) ?_
  rw [full]
  omega

end Machine

end E1Machine
