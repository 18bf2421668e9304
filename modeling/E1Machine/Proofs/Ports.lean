import E1Machine.Proofs.BusWidth
import E1Machine.Proofs.GeneralRegisters

/-!
# Double words in I/O

A double I/O access makes two transfers, the second four bytes above the first. Both addresses are mapped to
ports, which drops their thirteen low bits, and so the two transfers nearly always go to one port: the second word
that is stored overwrites the first, and a load finds the second word twice. Only at the end of the 8192 addresses
of a port does the second transfer reach the next port.

Main statement: `Machine.io_double_kept_iff`, a double word that was stored in I/O loads back exactly if it was
stored at the end of a port or its words are equal.
-/

namespace E1Machine

/-! ## Ports -/

/-- Whether the second word of a double access belongs to another port than the first. -/
def Straddles (addr : Word) : Prop := 0x1ffc ≤ addr.toNat % 0x2000

/-- Whether an address straddles two ports can be decided by its number. -/
instance : DecidablePred Straddles := fun addr =>
  inferInstanceAs (Decidable (0x1ffc ≤ addr.toNat % 0x2000))

/-- The two words of a double access have one port, unless the address of the second carries into the bits that
name the port. -/
lemma ioAddress_next (addr : Word) : ioAddress (addr + 4) ≠ ioAddress addr ↔ Straddles addr := by
  have small := addr.isLt
  have next : (addr + 4).toNat = (addr.toNat + 4) % 2 ^ 32 := BitVec.toNat_add addr 4
  unfold Straddles
  rw [ne_eq, ← BitVec.toNat_inj, toNat_ioAddress, toNat_ioAddress, next]
  omega

namespace Machine

/-! ## Transfers -/

/-- A double word is loaded from the two ports, and I/O stays as it is. -/
lemma loadData_ioDouble (m : Machine (DeviceBus FlatMemory)) (addr : Word) (data : Operand) :
    (loadData .ioDouble addr data).run m =
      ((), ⟨m.cpu.writePair data
        (m.bus.host.ioWord (ioAddress addr) ++ m.bus.host.ioWord (ioAddress (addr + 4))), m.bus⟩) := by
  have run : (loadData .ioDouble addr data).run m =
      (let first := (DeviceBus.readIoWord (ioAddress addr)).run m.bus
      let second := (DeviceBus.readIoWord (ioAddress (addr + 4))).run first.2
      ((), ⟨m.cpu.writePair data (first.1 ++ second.1), second.2⟩)) := rfl
  rw [run, m.bus.readIoWord_run (ioAddress_aligned addr)]
  dsimp only
  rw [m.bus.readIoWord_run (ioAddress_aligned (addr + 4))]

/-- A double word is stored in the two ports, the second word last. -/
lemma storeData_ioDouble (m : Machine (DeviceBus FlatMemory)) (addr : Word) (data : Operand) :
    ∃ host : FlatMemory,
      (storeData .ioDouble addr data).run m = ((), ⟨m.cpu, { m.bus with host }⟩) ∧
      host.byteAt = m.bus.host.byteAt ∧
      ∀ io, host.ioWord io =
        if io = ioAddress (addr + 4) then (m.cpu.stored data).2
        else if io = ioAddress addr then (m.cpu.stored data).1
        else m.bus.host.ioWord io := by
  have run : (storeData .ioDouble addr data).run m =
      (let first := (DeviceBus.writeIoWord (ioAddress addr) (m.cpu.stored data).1).run m.bus
      let second :=
        (DeviceBus.writeIoWord (ioAddress (addr + 4)) (m.cpu.stored data).2).run first.2
      ((), ⟨m.cpu, second.2⟩)) := rfl
  obtain ⟨host, first, wrote⟩ := m.bus.writeIoWord_run (ioAddress_aligned addr) (m.cpu.stored data).1
  obtain ⟨host', second, wrote'⟩ := DeviceBus.writeIoWord_run { m.bus with host := host }
    (ioAddress_aligned (addr + 4)) (m.cpu.stored data).2
  refine ⟨host', ?_, wrote'.byteAt_eq.trans wrote.byteAt_eq, fun io => ?_⟩
  · rw [run, first]
    dsimp only
    rw [second]
  · rw [wrote'.ioWord_eq, FlatMemory.ioWord_setIoWord, wrote.ioWord_eq, FlatMemory.ioWord_setIoWord]
    simp only [eq_comm]

/-! ## Storing and loading back -/

/-- In `after` the words `v` have been stored as a double word at an I/O address. A load from there, by any
processor, finds the first word if it has a port of its own, and otherwise the second word in its place. -/
structure StoredDouble (addr : Word) (v : Word × Word) (m after : Machine (DeviceBus FlatMemory)) :
    Prop where
  memory : after.bus.host.byteAt = m.bus.host.byteAt
  ports (io : Word) : after.bus.host.ioWord io =
    if io = ioAddress (addr + 4) then v.2 else if io = ioAddress addr then v.1
    else m.bus.host.ioWord io
  loads (c : Cpu) {addressing : Addressing} (there : c.transferAddress addressing = addr)
    (data : Operand) :
    (execute (.load .ioDouble addressing data)).run ⟨c, after.bus⟩ =
      ((), ⟨((c.advanceAddress addr addressing).writePair data
        ((if Straddles addr then v.1 else v.2) ++ v.2)).charge .memoryDouble, after.bus⟩)

/-- A double word that is stored at an I/O address is found there as the ports allow. -/
lemma store_ioDouble (m : Machine (DeviceBus FlatMemory)) (addressing : Addressing) (data : Operand) :
    StoredDouble (m.cpu.transferAddress addressing) (m.cpu.stored data) m
      ((execute (.store .ioDouble addressing data)).run m).2 := by
  obtain ⟨host, stored, memory, ports⟩ := storeData_ioDouble ⟨m.cpu.charge .memoryDouble, m.bus⟩
    (m.cpu.transferAddress addressing) data
  have run : (execute (.store .ioDouble addressing data)).run m =
      (let stored := ((storeData .ioDouble (m.cpu.transferAddress addressing) data).run
        ⟨m.cpu.charge .memoryDouble, m.bus⟩).2
      ((), ⟨stored.cpu.advanceAddress (m.cpu.transferAddress addressing) addressing, stored.bus⟩)) :=
    rfl
  rw [run, stored]
  generalize m.cpu.transferAddress addressing = addr at ports
  refine ⟨memory, ports, fun c addressing' there data' => ?_⟩
  have load : (execute (.load .ioDouble addressing' data')).run ⟨c, { m.bus with host }⟩ =
      (let loaded := ((loadData .ioDouble (c.transferAddress addressing') data').run
        ⟨c.advanceAddress (c.transferAddress addressing') addressing', { m.bus with host }⟩).2
      ((), ⟨loaded.cpu.charge .memoryDouble, loaded.bus⟩)) := rfl
  -- The second write may hit the port of the first, and does so if the words do not straddle two.
  have first : host.ioWord (ioAddress addr) =
      if Straddles addr then (m.cpu.stored data).1 else (m.cpu.stored data).2 := by
    rw [ports, if_pos rfl]
    have apart := ioAddress_next addr
    by_cases straddles : Straddles addr
    · rw [if_neg (Ne.symm (apart.mpr straddles)), if_pos straddles]
      rfl
    · rw [if_pos (not_not.mp (mt apart.mp straddles)).symm, if_neg straddles]
      rfl
  have second : host.ioWord (ioAddress (addr + 4)) = (m.cpu.stored data).2 := by
    rw [ports, if_pos rfl]
    rfl
  rw [load, there, loadData_ioDouble, first, second]

/-- The first word of a double word that is stored in I/O has a port of its own exactly if the words straddle two
ports. What a load from the same address finds is what was stored exactly if they do, or the words are equal. -/
theorem io_double_kept_iff (m : Machine (DeviceBus FlatMemory)) (addressing : Addressing)
    (data : Operand) :
    let addr := m.cpu.transferAddress addressing
    let v := m.cpu.stored data
    let after := ((execute (.store .ioDouble addressing data)).run m).2
    StoredDouble addr v m after ∧
    (ioAddress (addr + 4) ≠ ioAddress addr ↔ Straddles addr) ∧
    ∀ (c : Cpu) (addressing' : Addressing) (data' : Operand), c.transferAddress addressing' = addr →
      data'.IsGeneralField →
      (((execute (.load .ioDouble addressing' data')).run ⟨c, after.bus⟩).2.cpu.readPair data' =
        v.1 ++ v.2 ↔ Straddles addr ∨ v.1 = v.2) := by
  intro addr v after
  have stored : StoredDouble addr v m after := m.store_ioDouble addressing data
  refine ⟨stored, ioAddress_next addr, fun c addressing' data' there general => ?_⟩
  have found : ((execute (.load .ioDouble addressing' data')).run ⟨c, after.bus⟩).2.cpu.readPair data' =
      (if Straddles addr then v.1 else v.2) ++ v.2 := by
    rw [stored.loads c there data']
    exact Cpu.readPair_writePair _ general _
  rw [found]
  by_cases straddles : Straddles addr
  · rw [if_pos straddles]
    exact iff_of_true rfl (.inl straddles)
  · rw [if_neg straddles, or_iff_right straddles]
    -- With one port both halves of what is loaded are the second word.
    constructor
    · intro same
      have first := congrArg highWord same
      rw [highWord_append, highWord_append] at first
      exact first.symm
    · intro same
      rw [same]

/-- A program that stores local registers 2 and 3 as a double word in the first port, and loads it into 4 and 5. -/
def portProgram : Machine (DeviceBus FlatMemory) :=
  (powerOn Variant.e132t.config (({} : FlatMemory).loadHalves 0x1000
    [0x9912, 0x3003, 0x9114, 0x3003])).session
    [.host .reset, .host (.setGlobal Global.pc 0x1000), .host (.setLocal 2 1), .host (.setLocal 3 2)]

/-- At the end of the first port a double word is kept. -/
theorem straddling_kept :
    let addressing := Addressing.offset ⟨.globals, Global.sr⟩ 0x1ffc
    let stored := ((execute (.store .ioDouble addressing ⟨.locals, 2⟩)).run portProgram).2
    ((execute (.load .ioDouble addressing ⟨.locals, 4⟩)).run ⟨portProgram.cpu, stored.bus⟩).2.cpu.readPair
      ⟨.locals, 4⟩ = (1 : Word) ++ (2 : Word) := by
  intro addressing stored
  have words : portProgram.cpu.stored ⟨.locals, 2⟩ = (1, 2) := by decide +kernel
  have straddles : Straddles (portProgram.cpu.transferAddress addressing) := by decide +kernel
  obtain ⟨-, -, kept⟩ := io_double_kept_iff portProgram addressing ⟨.locals, 2⟩
  have loads := (kept portProgram.cpu addressing ⟨.locals, 4⟩ rfl (by decide)).mpr (.inl straddles)
  rwa [words] at loads

/-- The second word overwrites the first: the double word of 1 and 2 loads back as 2 and 2. -/
theorem io_double_overwritten :
    let stored := (executeOne.run portProgram).2
    let loaded := (executeOne.run stored).2
    portProgram.cpu.readPair ⟨.locals, 2⟩ = (1 : Word) ++ (2 : Word) ∧
      stored.bus.host.ioWord 0 = 2 ∧ stored.bus.host.ioWord 4 = 0 ∧
      loaded.cpu.readPair ⟨.locals, 4⟩ = (2 : Word) ++ (2 : Word) ∧
      loaded.cpu.readPair ⟨.locals, 4⟩ ≠ portProgram.cpu.readPair ⟨.locals, 2⟩ := by
  decide +kernel

end Machine

end E1Machine
