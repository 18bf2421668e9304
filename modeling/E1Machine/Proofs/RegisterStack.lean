import E1Machine.Proofs.ByteMemory
import E1Machine.Proofs.Cycle
import E1Machine.Proofs.Outcome
import Mathlib

/-!
# The register stack

Spilling and refilling move words of the register stack between the bank and memory, but never change
the stack itself: the words that a program finds there, wherever they are. A spill moves the lowest word
of the bank to the memory just below it. A refill moves a word back, over the one that is sixty-four
words above, which is where the bank ends.
-/

namespace E1Machine

namespace Machine

variable {β : Type} [Bus β] [ByteMemory β]

/-- The word of the register stack at an address: in memory below the stack pointer, in the bank from
there on. -/
def stackWord (m : Machine (DeviceBus β)) (addr : Word) : Word :=
  if addr < m.cpu.regs.sp then m.bus.wordAt addr else m.cpu.regs.localAt (stackCell addr)

/-- An address of a word is not rounded. -/
lemma alignWord_of_aligned {addr : Word} (aligned : addr.toNat % 4 = 0) : alignWord addr = addr := by
  apply BitVec.eq_of_toNat_eq
  rw [toNat_alignWord]
  omega

/-- Two words less than the size of the bank apart have different places in it. -/
lemma stackCell_ne {low high : Word} (alignedLow : low.toNat % 4 = 0)
    (alignedHigh : high.toNat % 4 = 0) (apart : low.toNat < high.toNat)
    (near : high.toNat < low.toNat + 256) : stackCell low ≠ stackCell high := by
  intro same
  have value : low.toNat / 4 % 64 = high.toNat / 4 % 64 := congrArg Fin.val same
  omega

/-- Two machines with the same stack pointer, bank and memory have the same register stack. -/
lemma stackWord_congr {m m' : Machine (DeviceBus β)} (sp : m'.cpu.regs.sp = m.cpu.regs.sp)
    (locals : m'.cpu.regs.locals = m.cpu.regs.locals)
    (memory : DeviceBus.SameMemory m.bus m'.bus) (addr : Word) :
    m'.stackWord addr = m.stackWord addr := by
  unfold stackWord Registers.localAt
  rw [sp, locals, memory.wordAt_eq]

/-! ## One word -/

/-- What spilling and refilling do beside the register stack: the stack pointer moves, and no handler is
entered. -/
structure Moved (m m' : Machine (DeviceBus β)) (sp : Nat) : Prop where
  sp_eq : m'.cpu.regs.sp.toNat = sp
  entries_eq : m'.cpu.entries = m.cpu.entries

/-- Where the stack pointer has not moved, the bank and the bus are the register stack. -/
lemma Moved.stackWord_eq {m m' : Machine (DeviceBus β)} (moved : Moved m m' m.cpu.regs.sp.toNat)
    (locals : m'.cpu.regs.locals = m.cpu.regs.locals) (bus : m'.bus = m.bus) (addr : Word) :
    m'.stackWord addr = m.stackWord addr := by
  have sp : m'.cpu.regs.sp = m.cpu.regs.sp := BitVec.eq_of_toNat_eq moved.sp_eq
  have memory : DeviceBus.SameMemory m.bus m'.bus := by
    rw [bus]
    exact ⟨rfl, rfl, rfl⟩
  exact stackWord_congr sp locals memory addr

omit [ByteMemory β] in
/-- A spill moves the stack pointer up by a word, if that does not go round. -/
lemma spill_moved (m : Machine (DeviceBus β)) (room : m.cpu.regs.sp.toNat + 4 < 2 ^ 32) :
    Moved m (spill.run m).2 (m.cpu.regs.sp.toNat + 4) := by
  have raised : (spill.run m).2.cpu.regs.sp = m.cpu.regs.sp + 4 := Registers.sp_setSp _ _
  refine ⟨?_, rfl⟩
  rw [raised]
  bv_omega

omit [ByteMemory β] in
/-- A refill moves the stack pointer down by a word, if that does not go round. -/
lemma refill_moved (m : Machine (DeviceBus β)) (room : 4 ≤ m.cpu.regs.sp.toNat) :
    Moved m (refill.run m).2 (m.cpu.regs.sp.toNat - 4) := by
  have lowered : (refill.run m).2.cpu.regs.sp = m.cpu.regs.sp - 4 := Registers.sp_setSp _ _
  refine ⟨?_, rfl⟩
  rw [lowered]
  bv_omega

/-- A spill outside the window of the on-chip RAM changes nothing about the device. -/
lemma spill_config (m : Machine (DeviceBus β)) (aligned : m.cpu.regs.sp.toNat % 4 = 0)
    (outside : iramOffset m.bus.config.iramSize m.cpu.regs.sp = none) :
    (spill.run m).2.bus.config = m.bus.config := by
  obtain ⟨config, -, -⟩ := m.bus.writeWord_outside
    (m.cpu.regs.localAt (stackCell m.cpu.regs.sp)) (m.bus.iramIndex_of_outside outside)
  show ((Bus.writeWord (alignWord m.cpu.regs.sp)
    (m.cpu.regs.localAt (stackCell m.cpu.regs.sp))).run m.bus).2.config = _
  rw [alignWord_of_aligned aligned]
  exact config

/-- A spill keeps the register stack. -/
lemma spill_stackWord (m : Machine (DeviceBus β)) {addr : Word}
    (aligned : m.cpu.regs.sp.toNat % 4 = 0) (room : m.cpu.regs.sp.toNat + 4 < 2 ^ 32)
    (outside : iramOffset m.bus.config.iramSize m.cpu.regs.sp = none)
    (alignedAddr : addr.toNat % 4 = 0) :
    (spill.run m).2.stackWord addr = m.stackWord addr := by
  have run : spill.run m =
      ((), ⟨m.cpu.modifyRegs (·.setSp (m.cpu.regs.sp + 4)),
        ((Bus.writeWord (alignWord m.cpu.regs.sp)
          (m.cpu.regs.localAt (stackCell m.cpu.regs.sp))).run m.bus).2⟩) := rfl
  have raised : (m.cpu.modifyRegs (·.setSp (m.cpu.regs.sp + 4))).regs.sp = m.cpu.regs.sp + 4 :=
    Registers.sp_setSp _ _
  have bank (cell : Fin 64) : (m.cpu.modifyRegs (·.setSp (m.cpu.regs.sp + 4))).regs.localAt cell =
      m.cpu.regs.localAt cell := Registers.localAt_setGlobal _ _ _ _
  rw [run, alignWord_of_aligned aligned]
  unfold stackWord
  dsimp only
  rw [raised, bank, m.bus.wordAt_writeWord _ (m.bus.iramIndex_of_outside outside) aligned alignedAddr]
  by_cases same : addr = m.cpu.regs.sp
  · -- The word spilled is now in memory.
    rw [if_pos same, if_pos (by bv_omega), if_neg (by bv_omega), same]
  · rw [if_neg same]
    by_cases below : addr < m.cpu.regs.sp
    · rw [if_pos below, if_pos (by bv_omega)]
    · rw [if_neg below, if_neg (by bv_omega)]

/-- A refill keeps the register stack, as far as the bank reaches afterwards. -/
lemma refill_stackWord (m : Machine (DeviceBus β)) {addr : Word}
    (aligned : m.cpu.regs.sp.toNat % 4 = 0) (room : 4 ≤ m.cpu.regs.sp.toNat)
    (alignedAddr : addr.toNat % 4 = 0) (held : addr.toNat + 4 < m.cpu.regs.sp.toNat + 256) :
    (refill.run m).2.stackWord addr = m.stackWord addr := by
  obtain ⟨value, same⟩ := m.bus.readWord_wordAt (m.cpu.regs.sp - 4)
  have run : refill.run m =
      ((), ⟨(m.cpu.modifyRegs (·.setSp (m.cpu.regs.sp - 4))).modifyRegs
          (·.setLocalAt (stackCell (m.cpu.regs.sp - 4))
            ((Bus.readWord (m.cpu.regs.sp - 4)).run m.bus).1),
        ((Bus.readWord (m.cpu.regs.sp - 4)).run m.bus).2⟩) := rfl
  have lowered : (refill.run m).2.cpu.regs.sp = m.cpu.regs.sp - 4 := by
    rw [run]
    exact Registers.sp_setSp _ _
  have bank (cell : Fin 64) : (refill.run m).2.cpu.regs.localAt cell =
      if stackCell (m.cpu.regs.sp - 4) = cell then m.bus.wordAt (m.cpu.regs.sp - 4)
      else m.cpu.regs.localAt cell := by
    rw [run, ← value]
    exact (Registers.localAt_setLocalAt _ _ _ _).trans
      (congrArg _ (Registers.localAt_setGlobal _ _ _ _))
  have memory : (refill.run m).2.bus.wordAt addr = m.bus.wordAt addr := same.wordAt_eq addr
  unfold stackWord
  rw [lowered, bank, memory]
  by_cases refilled : addr = m.cpu.regs.sp - 4
  · -- The word refilled is now in the bank.
    rw [if_neg (by bv_omega), if_pos (by rw [refilled]), if_pos (by bv_omega), refilled]
  · by_cases below : addr < m.cpu.regs.sp
    · rw [if_pos below, if_pos (by bv_omega)]
    · -- Any other word of the bank is less than sixty-four words above.
      have cell : stackCell (m.cpu.regs.sp - 4) ≠ stackCell addr :=
        stackCell_ne (by bv_omega) alignedAddr (by bv_omega) (by bv_omega)
      rw [if_neg below, if_neg (by bv_omega), if_neg cell]

/-! ## As many as it takes -/

omit [ByteMemory β] in
/-- Spills move the stack pointer up by as many words, by induction on their number. -/
lemma spills_moved (n : Nat) : ∀ {m : Machine (DeviceBus β)},
    m.cpu.regs.sp.toNat + 4 * n < 2 ^ 32 →
    Moved m ((times n spill).run m).2 (m.cpu.regs.sp.toNat + 4 * n) := by
  induction n with
  | zero => exact fun _ => ⟨rfl, rfl⟩
  | succ n ih =>
    intro m room
    have one := spill_moved m (by omega)
    have rest := ih (m := (spill.run m).2) (by rw [one.sp_eq]; omega)
    rw [one.sp_eq] at rest
    exact ⟨rest.sp_eq.trans (by omega), rest.entries_eq.trans one.entries_eq⟩

omit [ByteMemory β] in
/-- Refills move the stack pointer down by as many words, by induction on their number. -/
lemma refills_moved (n : Nat) : ∀ {m : Machine (DeviceBus β)},
    4 * n ≤ m.cpu.regs.sp.toNat →
    Moved m ((times n refill).run m).2 (m.cpu.regs.sp.toNat - 4 * n) := by
  induction n with
  | zero => exact fun _ => ⟨rfl, rfl⟩
  | succ n ih =>
    intro m room
    have one := refill_moved m (by omega)
    have rest := ih (m := (refill.run m).2) (by rw [one.sp_eq]; omega)
    rw [one.sp_eq] at rest
    exact ⟨rest.sp_eq.trans (by omega), rest.entries_eq.trans one.entries_eq⟩

/-- Spills keep every word of the register stack, if those that they store are not in the on-chip RAM. -/
lemma spills_stackWord (n : Nat) : ∀ {m : Machine (DeviceBus β)},
    m.cpu.regs.sp.toNat % 4 = 0 → m.cpu.regs.sp.toNat + 4 * n < 2 ^ 32 →
    (∀ word : Word, m.cpu.regs.sp.toNat ≤ word.toNat →
      word.toNat < m.cpu.regs.sp.toNat + 4 * n →
      iramOffset m.bus.config.iramSize word = none) →
    ∀ addr : Word, addr.toNat % 4 = 0 →
      ((times n spill).run m).2.stackWord addr = m.stackWord addr := by
  induction n with
  | zero => exact fun _ _ _ _ _ => rfl
  | succ n ih =>
    intro m aligned room outside addr alignedAddr
    -- The first spill writes at the stack pointer, the others above it.
    have here := outside m.cpu.regs.sp (Nat.le_refl _) (by omega)
    have one := spill_moved m (by omega)
    have first := spill_stackWord m aligned (by omega) here alignedAddr
    have rest := ih (m := (spill.run m).2) (by rw [one.sp_eq]; omega) (by rw [one.sp_eq]; omega)
    rw [one.sp_eq, spill_config m aligned here] at rest
    exact (rest (fun word above below => outside word (by omega) (by omega)) addr
      alignedAddr).trans first

/-- Refills keep every word of the register stack below the end of the bank that they leave. -/
lemma refills_stackWord (n : Nat) : ∀ {m : Machine (DeviceBus β)},
    m.cpu.regs.sp.toNat % 4 = 0 → 4 * n ≤ m.cpu.regs.sp.toNat →
    ∀ addr : Word, addr.toNat % 4 = 0 → addr.toNat + 4 * n < m.cpu.regs.sp.toNat + 256 →
      ((times n refill).run m).2.stackWord addr = m.stackWord addr := by
  induction n with
  | zero => exact fun _ _ _ _ _ => rfl
  | succ n ih =>
    intro m aligned room addr alignedAddr held
    have one := refill_moved m (by omega)
    have first := refill_stackWord m aligned (by omega) alignedAddr (by omega)
    have rest := ih (m := (refill.run m).2) (by rw [one.sp_eq]; omega) (by rw [one.sp_eq]; omega)
    rw [one.sp_eq] at rest
    exact (rest addr alignedAddr (by omega)).trans first

/-! ## Frames -/

/-- Spending the cost of an instruction enters no handler. -/
lemma charge_entries (c : Cpu) (kind : CostClass) : (c.charge kind).entries = c.entries := rfl

/-- A raise is an entry, so a processor that notes none has not raised. -/
lemma raiseIf_eq_self {c : Cpu} {condition : Bool} {exception : Exception} {kind : CostClass}
    (none : ((c.raiseIf condition exception).charge kind).entries = c.entries) :
    c.raiseIf condition exception = c := by
  rw [charge_entries] at none
  cases condition with
  | false => rfl
  | true =>
    obtain ⟨regs, lastPc, n, e, -, -, -, raised⟩ := c.raise_enters exception
    have pushed : (c.raise exception).entries = c.entries.push e := by rw [raised]
    have size := congrArg Array.size (pushed.symm.trans none)
    rw [Array.size_push] at size
    omega

omit [ByteMemory β] in
/-- A frame is opened by spills, and then an error unless the stack has room. -/
lemma frame_run (m : Machine (DeviceBus β)) (back length : BitVec 4)
    (noError : ((frame back length).run m).2.cpu.entries = m.cpu.entries) :
    ∃ (n : Nat) (start : Machine (DeviceBus β)), n ≤ 64 ∧ Moved m start m.cpu.regs.sp.toNat ∧
      start.cpu.regs.locals = m.cpu.regs.locals ∧ start.bus = m.bus ∧
      (m.cpu.regs.sp.toNat + 4 * n < 2 ^ 32 → (frame back length).run m =
        ((), ⟨((times n spill).run start).2.cpu.charge .controlTransfer,
          ((times n spill).run start).2.bus⟩)) := by
  obtain ⟨reframed, overflows, eq, run⟩ := m.frame_spills back length
  obtain ⟨status, changed⟩ := m.cpu.reframe_changes back length
  rw [← eq] at changed
  have entries : reframed.entries = m.cpu.entries := by rw [changed]
  have sp : reframed.regs.sp = m.cpu.regs.sp := by
    rw [changed]
    exact Registers.global_setStatus _ _ (by decide)
  have locals : reframed.regs.locals = m.cpu.regs.locals := by rw [changed]
  refine ⟨reframed.spillCount, ⟨reframed, m.bus⟩, reframed.spillCount_le, ⟨congrArg BitVec.toNat sp, entries⟩,
    locals, rfl, fun room => ?_⟩
  rw [← sp] at room
  have moved := spills_moved reframed.spillCount (m := ⟨reframed, m.bus⟩) room
  rw [run] at noError ⊢
  rw [raiseIf_eq_self (noError.trans (moved.entries_eq.trans entries).symm)]

omit [ByteMemory β] in
/-- A return is made by refills, and then an error if it breaks privilege. -/
lemma ret_run (m : Machine (DeviceBus β)) (src : Operand)
    (noError : ((ret src).run m).2.cpu.entries = m.cpu.entries) :
    ∃ (n : Nat) (start : Machine (DeviceBus β)), n ≤ 64 ∧ Moved m start m.cpu.regs.sp.toNat ∧
      start.cpu.regs.locals = m.cpu.regs.locals ∧ start.bus = m.bus ∧
      (4 * n ≤ m.cpu.regs.sp.toNat → (ret src).run m =
        ((), ⟨((times n refill).run start).2.cpu.charge .controlTransfer,
          ((times n refill).run start).2.bus⟩)) := by
  obtain ⟨resumed, eq, run⟩ := m.ret_refills src
  obtain ⟨status, lastPc, lockout, changed⟩ :=
    m.cpu.resume_changes (m.cpu.read src) (m.cpu.read src.next)
  rw [← eq] at changed
  have entries : resumed.entries = m.cpu.entries := by rw [changed]
  have sp : resumed.regs.sp = m.cpu.regs.sp := by
    rw [changed]
    unfold Registers.sp Registers.setPc
    rw [Registers.global_setStatus _ _ (by decide), Registers.global_setGlobal, if_neg (by decide)]
  have locals : resumed.regs.locals = m.cpu.regs.locals := by
    rw [changed]
    rfl
  refine ⟨resumed.refillCount, ⟨resumed, m.bus⟩, resumed.refillCount_le, ⟨congrArg BitVec.toNat sp, entries⟩,
    locals, rfl, fun room => ?_⟩
  rw [← sp] at room
  have moved := refills_moved resumed.refillCount (m := ⟨resumed, m.bus⟩) room
  rw [run] at noError ⊢
  rw [raiseIf_eq_self (noError.trans (moved.entries_eq.trans entries).symm)]

/-- Whether an instruction moves the frame, and words of the register stack with it. -/
def movesFrame : Instruction → Bool
  | .frame _ _ | .ret _ => true
  | _ => false

/-- Spilling and refilling never change the register stack: an instruction that opens a frame or returns
leaves every word of it as it was, below the end of the bank before and after, unless it raises an error,
which is an entry of its own. -/
theorem register_stack_kept (m : Machine (DeviceBus β)) (i : Instruction) (moves : movesFrame i)
    (aligned : m.cpu.regs.sp.toNat % 4 = 0) (low : 256 ≤ m.cpu.regs.sp.toNat)
    (high : m.cpu.regs.sp.toNat ≤ 2 ^ 32 - 512)
    (outside : ∀ word : Word,
      min m.cpu.regs.sp.toNat ((execute i).run m).2.cpu.regs.sp.toNat ≤ word.toNat →
      word.toNat < max m.cpu.regs.sp.toNat ((execute i).run m).2.cpu.regs.sp.toNat →
      iramOffset m.bus.config.iramSize word = none)
    (noError : ((execute i).run m).2.cpu.entries = m.cpu.entries)
    (addr : Word) (alignedAddr : addr.toNat % 4 = 0)
    (held : addr.toNat <
      min m.cpu.regs.sp.toNat ((execute i).run m).2.cpu.regs.sp.toNat + 256) :
    ((execute i).run m).2.stackWord addr = m.stackWord addr := by
  cases i with
  | frame back length =>
    -- Without an entry the frame is opened and the spills are all that is left to do.
    obtain ⟨n, start, few, begun, locals, bus, runs⟩ := m.frame_run back length noError
    have run : (execute (.frame back length)).run m = _ := runs (by omega)
    have moved := spills_moved n (m := start) (by rw [begun.sp_eq]; omega)
    rw [begun.sp_eq] at moved
    -- The stack pointer ends where the hypotheses about the on-chip RAM and the bank say.
    have final : ((execute (.frame back length)).run m).2.cpu.regs.sp.toNat =
        m.cpu.regs.sp.toNat + 4 * n := by
      rw [run]
      exact moved.sp_eq
    rw [final] at outside
    have kept := spills_stackWord n (m := start) (by rw [begun.sp_eq]; exact aligned)
      (by rw [begun.sp_eq]; omega)
    rw [begun.sp_eq, bus] at kept
    have opened := kept (fun word above below => outside word (by omega) (by omega)) addr
      alignedAddr
    rw [run]
    exact opened.trans (begun.stackWord_eq locals bus addr)
  | ret src =>
    -- A return resumes first; the refills are all that is left to do.
    obtain ⟨n, start, few, begun, locals, bus, runs⟩ := m.ret_run src noError
    have run : (execute (.ret src)).run m = _ := runs (by omega)
    have moved := refills_moved n (m := start) (by rw [begun.sp_eq]; omega)
    rw [begun.sp_eq] at moved
    have final : ((execute (.ret src)).run m).2.cpu.regs.sp.toNat =
        m.cpu.regs.sp.toNat - 4 * n := by
      rw [run]
      exact moved.sp_eq
    rw [final] at held
    have kept := refills_stackWord n (m := start) (by rw [begun.sp_eq]; exact aligned)
      (by rw [begun.sp_eq]; omega) addr alignedAddr (by rw [begun.sp_eq]; omega)
    rw [run]
    exact Eq.trans kept (begun.stackWord_eq locals bus addr)
  | _ => cases moves

/-- A machine whose next frame leaves too little of the bank: the word at address 512 must be spilled. -/
def fullBank : Machine (DeviceBus FlatMemory) :=
  let m := powerOn Variant.e132t.config {}
  ⟨m.cpu.modifyRegs fun r =>
    (((r.setSp 512).setGlobal Global.ub 1024).setLocalAt (stackCell 512) 7).modifyStatus
      fun status => { status with fp := 60 }, m.bus⟩

/-- The word at address 512 is spilled and kept. -/
theorem fullBank_kept :
    let after := ((execute (.frame 0 6)).run fullBank).2
    after.cpu.regs.sp = 560 ∧ after.stackWord 512 = fullBank.stackWord 512 ∧
      fullBank.stackWord 512 = 7 := by
  have start : fullBank.cpu.regs.sp.toNat = 512 := by decide +kernel
  have sp : ((execute (.frame 0 6)).run fullBank).2.cpu.regs.sp = 560 := by decide +kernel
  have noError : ((execute (.frame 0 6)).run fullBank).2.cpu.entries = fullBank.cpu.entries := by
    decide +kernel
  have held : fullBank.stackWord 512 = 7 := by decide +kernel
  refine ⟨sp, ?_, held⟩
  refine register_stack_kept fullBank (.frame 0 6) rfl ?_ ?_ ?_ ?_ noError 512 rfl ?_
  · rw [start]
  · rw [start]
    decide
  · rw [start]
    decide
  · intro word _ below
    rw [start, sp] at below
    exact iramOffset_of_lt _ (Nat.lt_trans below (by decide))
  · rw [start, sp]
    decide

end Machine

end E1Machine
