import E1Machine.Proofs.ByteMemory
import E1Machine.Proofs.Lockstep
import E1Machine.Proofs.Moves

/-!
# Buses of either width

A word that leaves a device goes over its bus in one piece or, if the bus has 16 bits, as two halves, and
half an I/O word is written by changing the whole one. On a flat memory both come to the same contents of
memory and I/O. Two devices that differ at most in the width of their buses therefore agree after any moves
and after any calls (`bus_width_invisible`).
-/

namespace E1Machine

/-! ## Halves of words and their addresses -/

/-- A word is made of its two halves. -/
lemma highHalf_append_lowHalf (word : Word) : highHalf word ++ lowHalf word = word :=
  BitVec.extractLsb'_append_extractLsb'

/-- An I/O address selects one of 8192 words. -/
lemma toNat_ioAddress (addr : Word) : (ioAddress addr).toNat = addr.toNat / 8192 % 8192 * 4 := by
  rw [ioAddress, BitVec.toNat_setWidth_of_le (by decide), BitVec.toNat_append, BitVec.toNat_ofNat,
    BitVec.extractLsb'_toNat, Nat.shiftRight_eq_div_pow, Nat.shiftLeft_eq, Nat.zero_mod, Nat.or_zero]

/-- An I/O word starts at a multiple of four. -/
lemma ioAddress_aligned (addr : Word) : (ioAddress addr).toNat % 4 = 0 := by
  rw [toNat_ioAddress]
  exact Nat.mul_mod_left _ _

/-- The last I/O word starts at 0x7ffc. -/
lemma ioAddress_le (addr : Word) : (ioAddress addr).toNat ≤ 0x7ffc := by
  rw [toNat_ioAddress]
  omega

/-- The halves of an I/O word have its address and the next halfword's. -/
lemma alignWord_aligned {io : Word} (aligned : io.toNat % 4 = 0) :
    (alignWord io = io ∧ isLowerIoHalf io = false) ∧
      alignWord (io + 2) = io ∧ isLowerIoHalf (io + 2) = true := by
  have next : (io + 2).toNat = io.toNat + 2 := by bv_omega
  have whole (addr : Word) (same : addr.toNat / 4 * 4 = io.toNat) : alignWord addr = io :=
    BitVec.eq_of_toNat_eq ((toNat_alignWord addr).trans same)
  have lower (addr : Word) : isLowerIoHalf addr = decide (addr.toNat / 2 % 2 = 1) :=
    Nat.testBit_eq_decide_div_mod_eq
  refine ⟨⟨whole io (by omega), ?_⟩, whole (io + 2) (by omega), ?_⟩
  · rw [lower]
    exact decide_eq_false (by omega)
  · rw [lower, next]
    exact decide_eq_true (by omega)

/-! ## Flat memories -/

namespace FlatMemory

/-- Two flat memories with the same contents of every byte and every I/O word, and the same acknowledged
lines. -/
structure Agree (m m' : FlatMemory) : Prop where
  byteAt_eq : m.byteAt = m'.byteAt
  ioWord_eq : m.ioWord = m'.ioWord
  acknowledged_eq : m.acknowledged = m'.acknowledged

variable {m m' m'' : FlatMemory}

/-- A flat memory agrees with itself. -/
lemma Agree.refl (m : FlatMemory) : Agree m m := ⟨rfl, rfl, rfl⟩

/-- Agreement of flat memories is symmetric. -/
lemma Agree.symm (agree : Agree m m') : Agree m' m :=
  ⟨agree.byteAt_eq.symm, agree.ioWord_eq.symm, agree.acknowledged_eq.symm⟩

/-- Agreement of flat memories is transitive. -/
lemma Agree.trans (agree : Agree m m') (agree' : Agree m' m'') : Agree m m'' :=
  ⟨agree.byteAt_eq.trans agree'.byteAt_eq, agree.ioWord_eq.trans agree'.ioWord_eq,
    agree.acknowledged_eq.trans agree'.acknowledged_eq⟩

/-- Memories that agree have the same halfwords. -/
lemma Agree.halfAt_eq (agree : Agree m m') (addr : Word) : m.halfAt addr = m'.halfAt addr := by
  unfold halfAt
  rw [agree.byteAt_eq]

/-- Memories that agree have the same words. -/
lemma Agree.wordAt_eq (agree : Agree m m') (addr : Word) : m.wordAt addr = m'.wordAt addr := by
  unfold wordAt
  rw [agree.byteAt_eq]

/-- Memories agree after the same byte is stored in both. -/
lemma Agree.storeByte (agree : Agree m m') (addr : Word) (value : Byte) :
    Agree (m.storeByte addr value) (m'.storeByte addr value) where
  byteAt_eq := by rw [byteAt_storeByte_eq, byteAt_storeByte_eq, agree.byteAt_eq]
  ioWord_eq := agree.ioWord_eq
  acknowledged_eq := agree.acknowledged_eq

/-- Memories agree after the same halfword is stored in both. -/
lemma Agree.storeHalf (agree : Agree m m') (addr : Word) (value : Half) :
    Agree (m.storeHalf addr value) (m'.storeHalf addr value) :=
  (agree.storeByte _ _).storeByte _ _

/-- Memories agree after the same word is stored in both. -/
lemma Agree.storeWord (agree : Agree m m') (addr value : Word) :
    Agree (m.storeWord addr value) (m'.storeWord addr value) :=
  (((agree.storeByte _ _).storeByte _ _).storeByte _ _).storeByte _ _

/-- Memories agree after the same I/O word is stored in both. -/
lemma Agree.setIoWord (agree : Agree m m') (io value : Word) :
    Agree (m.setIoWord io value) (m'.setIoWord io value) where
  byteAt_eq := agree.byteAt_eq
  ioWord_eq := by
    funext other
    rw [ioWord_setIoWord, ioWord_setIoWord, agree.ioWord_eq]
  acknowledged_eq := agree.acknowledged_eq

/-! ## Halves of words -/

/-- Two halfwords in a row are a word. -/
lemma halfAt_append_halfAt (m : FlatMemory) (addr : Word) :
    m.halfAt addr ++ m.halfAt (addr + 2) = m.wordAt addr :=
  (ByteMemory.readWord m addr).1.symm

/-! ## Halves of I/O words -/

/-- The two halves that are read of an I/O word. -/
lemma ioReadHalf_run (m : FlatMemory) {io : Word} (aligned : io.toNat % 4 = 0) :
    (Bus.ioReadHalf io).run m = (highHalf (m.ioWord io), m) ∧
      (Bus.ioReadHalf (io + 2)).run m = (lowHalf (m.ioWord io), m) := by
  have read (half : Word) : (Bus.ioReadHalf half).run m =
      (if isLowerIoHalf half then lowHalf (m.ioWord (alignWord half))
        else highHalf (m.ioWord (alignWord half)), m) := rfl
  obtain ⟨⟨first, upper⟩, second, lower⟩ := alignWord_aligned aligned
  rw [read, read, first, upper, second, lower]
  exact ⟨rfl, rfl⟩

/-- Only the last write of an I/O word counts. -/
lemma setIoWord_setIoWord (m : FlatMemory) (io first value : Word) :
    Agree ((m.setIoWord io first).setIoWord io value) (m.setIoWord io value) where
  byteAt_eq := rfl
  ioWord_eq := by
    funext other
    rw [ioWord_setIoWord, ioWord_setIoWord, ioWord_setIoWord]
    split <;> rfl
  acknowledged_eq := rfl

/-- Writing the halves of an I/O word in a row writes the word: the second write keeps the half that the
first has left. -/
lemma ioWriteHalf_ioWriteHalf (m : FlatMemory) {io : Word} (aligned : io.toNat % 4 = 0)
    (value : Word) :
    Agree ((Bus.ioWriteHalf (io + 2) (lowHalf value)).run
        ((Bus.ioWriteHalf io (highHalf value)).run m).2).2 (m.setIoWord io value) := by
  have write (m : FlatMemory) (half : Word) (value : Half) :
      ((Bus.ioWriteHalf half value).run m).2 =
        m.setIoWord (alignWord half) (if isLowerIoHalf half
          then highHalf (m.ioWord (alignWord half)) ++ value
          else value ++ lowHalf (m.ioWord (alignWord half))) := rfl
  have kept : highHalf (highHalf value ++ lowHalf (m.ioWord io)) = highHalf value :=
    BitVec.extractLsb'_append_eq_left
  obtain ⟨⟨first, upper⟩, second, lower⟩ := alignWord_aligned aligned
  rw [write, write, first, upper, second, lower, if_pos rfl, if_neg Bool.false_ne_true,
    ioWord_setIoWord, if_pos rfl, kept, highHalf_append_lowHalf]
  exact m.setIoWord_setIoWord io _ value

end FlatMemory

/-! ## Devices -/

namespace DeviceBus

/-- Two devices that differ at most in the width of their buses, with the same contents of the on-chip RAM
and hosts that agree. -/
structure Agree (d d' : DeviceBus FlatMemory) : Prop where
  config_eq : d'.config =
    { d.config with programBus := d'.config.programBus, ioBus := d'.config.ioBus }
  iram_eq : d.iram = d'.iram
  host : d.host.Agree d'.host

/-- The on-chip RAM answers the same addresses. -/
lemma Agree.iramIndex_eq {d d' : DeviceBus FlatMemory} (agree : Agree d d') (addr : Word) :
    d.iramIndex addr = d'.iramIndex addr := by
  unfold iramIndex
  rw [agree.config_eq, agree.iram_eq]

section Requests

variable {α : Type}

/-- Requests of the host that agreeing memories answer alike. -/
lemma onHost_agree {x : StateM FlatMemory α} (alike : Answers FlatMemory.Agree x x) :
    Answers Agree (onHost x) (onHost x) := by
  intro d d' agree
  obtain ⟨same, host⟩ := alike agree.host
  exact ⟨same, agree.config_eq, agree.iram_eq, host⟩

/-- A request that only reads: its answer is a part of memory that agreeing memories share. -/
lemma reads_agree {x : StateM (DeviceBus FlatMemory) α} {f : FlatMemory → α}
    (reads : ∀ d, x.run d = (f d.host, d)) (alike : ∀ {m m'}, FlatMemory.Agree m m' → f m = f m') :
    Answers Agree x x := by
  intro d d' agree
  rw [reads, reads]
  exact ⟨alike agree.host, agree⟩

/-- A request that changes the host, over a bus of either width, to what agrees with one write. -/
lemma writes_agree {x : StateM (DeviceBus FlatMemory) Unit} {f : FlatMemory → FlatMemory}
    (writes : ∀ d, ∃ host, x.run d = ((), { d with host }) ∧ host.Agree (f d.host))
    (alike : ∀ {m m'}, FlatMemory.Agree m m' → (f m).Agree (f m')) : Answers Agree x x := by
  intro d d' agree
  obtain ⟨host, run, wrote⟩ := writes d
  obtain ⟨host', run', wrote'⟩ := writes d'
  rw [run, run']
  exact ⟨rfl, agree.config_eq, agree.iram_eq, (wrote.trans (alike agree.host)).trans wrote'.symm⟩

/-- A read is answered alike if the host answers alike, since the on-chip RAM is the same. -/
lemma readVia_agree (addr : Word) (chip : Iram → Nat → α)
    {outside : StateM (DeviceBus FlatMemory) α} (alike : Answers Agree outside outside) :
    Answers Agree (readVia addr chip outside) (readVia addr chip outside) := by
  intro d d' agree
  unfold readVia
  rw [StateT.run_bind, StateT.run_bind, StateT.run_get, StateT.run_get, pure_bind, pure_bind]
  dsimp only
  rw [agree.iramIndex_eq, agree.iram_eq]
  cases d'.iramIndex addr with
  | some index => exact ⟨rfl, agree⟩
  | none => exact alike agree

/-- A write leaves devices that agree if it does so outside the window of the RAM. -/
lemma writeVia_agree (addr : Word) (chip : Iram → Nat → Iram)
    {outside : StateM (DeviceBus FlatMemory) Unit} (alike : Answers Agree outside outside) :
    Answers Agree (writeVia addr chip outside) (writeVia addr chip outside) := by
  intro d d' agree
  unfold writeVia
  rw [StateT.run_bind, StateT.run_bind, StateT.run_get, StateT.run_get, pure_bind, pure_bind]
  dsimp only
  rw [agree.iramIndex_eq]
  cases d'.iramIndex addr with
  | some index => exact ⟨rfl, agree.config_eq, congrArg (chip · index) agree.iram_eq, agree.host⟩
  | none => exact alike agree

end Requests

/-- A word is read from the host as it is in memory, over a bus of either width. -/
lemma readHostWord_run (d : DeviceBus FlatMemory) (addr : Word) :
    (readHostWord addr).run d = (d.host.wordAt addr, d) := by
  obtain ⟨⟨variant, programBus, ioBus, size, mask⟩, iram, host⟩ := d
  cases programBus with
  | bits32 => rfl
  | bits16 => exact congrArg (·, _) (host.halfAt_append_halfAt addr)

/-- A word is written to the host, over a bus of either width. -/
lemma writeHostWord_run (d : DeviceBus FlatMemory) (addr value : Word) :
    (writeHostWord addr value).run d = ((), { d with host := d.host.storeWord addr value }) := by
  obtain ⟨⟨variant, programBus, ioBus, size, mask⟩, iram, host⟩ := d
  cases programBus with
  | bits32 => rfl
  | bits16 =>
    rw [← host.storeHalf_storeHalf addr value]
    rfl

/-- An I/O word is read as it is, over a bus of either width. -/
lemma readIoWord_run (d : DeviceBus FlatMemory) {io : Word} (aligned : io.toNat % 4 = 0) :
    (readIoWord io).run d = (d.host.ioWord io, d) := by
  obtain ⟨⟨variant, programBus, ioBus, size, mask⟩, iram, host⟩ := d
  cases ioBus with
  | bits32 => rfl
  | bits16 =>
    obtain ⟨upper, lower⟩ := host.ioReadHalf_run aligned
    let device (host : FlatMemory) : DeviceBus FlatMemory :=
      ⟨⟨variant, programBus, .bits16, size, mask⟩, iram, host⟩
    have both : (readIoWord io).run (device host) =
        (((Bus.ioReadHalf io).run host).1 ++
          ((Bus.ioReadHalf (io + 2)).run ((Bus.ioReadHalf io).run host).2).1,
        device ((Bus.ioReadHalf (io + 2)).run ((Bus.ioReadHalf io).run host).2).2) := rfl
    rw [upper, lower, highHalf_append_lowHalf] at both
    exact both

/-- An I/O word is written, over a bus of either width. -/
lemma writeIoWord_run (d : DeviceBus FlatMemory) {io : Word} (aligned : io.toNat % 4 = 0)
    (value : Word) :
    ∃ host, (writeIoWord io value).run d = ((), { d with host }) ∧
      host.Agree (d.host.setIoWord io value) := by
  obtain ⟨⟨variant, programBus, ioBus, size, mask⟩, iram, host⟩ := d
  cases ioBus with
  | bits32 => exact ⟨_, rfl, .refl _⟩
  | bits16 => exact ⟨_, rfl, host.ioWriteHalf_ioWriteHalf aligned value⟩

/-- Devices that agree answer every request of the processor alike. -/
lemma agree_answersAlike : AnswersAlike Agree where
  readByte addr := readVia_agree addr _ (onHost_agree fun _ _ agree =>
    ⟨congrFun agree.byteAt_eq addr, agree⟩)
  readHalf addr := readVia_agree addr _ (onHost_agree fun _ _ agree =>
    ⟨agree.halfAt_eq addr, agree⟩)
  readWord addr := readVia_agree addr _
    (reads_agree (readHostWord_run · addr) fun agree => agree.wordAt_eq addr)
  writeByte addr value := writeVia_agree addr _ (onHost_agree fun _ _ agree =>
    ⟨rfl, agree.storeByte addr value⟩)
  writeHalf addr value := writeVia_agree addr _ (onHost_agree fun _ _ agree =>
    ⟨rfl, agree.storeHalf addr value⟩)
  writeWord addr value := writeVia_agree addr _
    (writes_agree (fun d => ⟨_, writeHostWord_run d addr value, .refl _⟩)
      fun agree => agree.storeWord addr value)
  ioReadWord addr := reads_agree (readIoWord_run · (ioAddress_aligned addr))
    fun agree => congrFun agree.ioWord_eq _
  ioWriteWord addr value :=
    writes_agree (writeIoWord_run · (ioAddress_aligned addr) value)
      fun agree => agree.setIoWord _ value
  fetch addr := readVia_agree addr _ (onHost_agree fun _ _ agree =>
    ⟨agree.halfAt_eq addr, agree⟩)
  acknowledge line := onHost_agree fun _ _ agree =>
    ⟨rfl, agree.byteAt_eq, agree.ioWord_eq, congrArg (·.push line) agree.acknowledged_eq⟩

end DeviceBus

/-! ## Equal processors -/

/-- Every step keeps processors equal. -/
lemma Cpu.eq_cycleCongruence : CycleCongruence Eq where
  regs_eq r := by rw [r]
  length_eq r := by rw [r]
  scale_eq r := by rw [r]
  begin r := by rw [r]
  continueAt _ r := by rw [r]
  redirect r := by rw [r]
  modifyStatus _ r := by rw [r]
  setLocalAt _ _ r := by rw [r]
  setSp _ r := by rw [r]
  setGlobal _ _ r := by rw [r]
  jump _ r := by rw [r]
  spend _ r := by rw [r]
  block _ r := by rw [r]
  report _ r := by rw [r]
  enterTrap _ r := by rw [r]
  raise _ r := by rw [r]
  enterEmulation _ _ _ r := by rw [r]
  resume _ _ r := by rw [r]
  delay_eq r := by rw [r]
  due_eq r := by rw [r]
  stop _ r := by rw [r]
  delayTo _ r := by rw [r]
  setHigh _ r := by rw [r]
  retire r := by rw [r]
  expires_iff r := by rw [r]
  takeInterrupt _ r := by rw [r]

namespace Machine

section Alike

variable {α β β' : Type} {S : β → β' → Prop}

/-- Equal processors stay equal under any change. -/
lemma Related.same (f : Cpu → Cpu) :
    Related Eq Eq S Eq (Machine.modifyCpu f : Exec β Unit) (Machine.modifyCpu f : Exec β' Unit) :=
  .modifyCpu (congrArg f)

variable [Bus β] [Bus β'] (hS : AnswersAlike S)
include hS

/-- An instruction cycle does the same on buses that answer alike. -/
lemma executeOne_alike :
    Related Eq Eq S Eq (executeOne : Exec β (Except Fault Unit)) (executeOne : Exec β' _) := by
  have ticks : Cpu.KeepsTicks Eq := by
    rintro c _ rfl
    exact ⟨rfl, rfl⟩
  exact fun _ _ r s => executeOne_related Cpu.eq_cycleCongruence hS r s fun _ _ _ => ticks

/-- The rounds of a slice do the same on buses that answer alike. -/
lemma executeWhile_alike (fuel : Nat) :
    Related Eq Eq S Eq (executeWhile fuel : Exec β (Except Fault Unit))
      (executeWhile fuel : Exec β' _) := by
  induction fuel with
  | zero => exact .pure rfl
  | succ fuel ih =>
    refine .next (executeOne_alike hS) fun result => ?_
    cases result with
    | error fault => exact .pure rfl
    | ok _ =>
      refine .next .getCpu fun c => ?_
      split
      · exact ih
      · exact .pure rfl

/-- A slice does the same on buses that answer alike. -/
lemma slice_alike (cycles : Nat) :
    Related Eq Eq S Eq (slice cycles : Exec β (Except Fault Nat)) (slice cycles : Exec β' _) := by
  refine .next .getCpu fun c => ?_
  dsimp only
  cases c.fault with
  | some fault => exact .pure rfl
  | none =>
    dsimp only
    split
    · exact .pure rfl
    · exact .seq (.same _) (.seq (checkInterrupts_related Cpu.eq_cycleCongruence hS)
        (.next (executeWhile_alike hS _) fun result =>
          .seq (.same _) (.next .getCpu fun after => .pure rfl)))

/-- The slices of a run do the same on buses that answer alike. -/
lemma runUntil_alike (stop fuel : Nat) :
    Related Eq Eq S Eq (runUntil stop fuel : Exec β (Except Fault Unit))
      (runUntil stop fuel : Exec β' _) := by
  induction fuel with
  | zero => exact .pure rfl
  | succ fuel ih =>
    refine .next .getCpu fun c => ?_
    split
    · refine .seq (.same _) (.next .getCpu fun served => .next (slice_alike hS _) fun result => ?_)
      cases result with
      | error fault => exact .pure rfl
      | ok _ => exact ih
    · exact .pure rfl

/-- A run does the same on buses that answer alike. -/
lemma run_alike (cycles : Nat) :
    Related Eq Eq S Eq (run cycles : Exec β (Except Fault RunOutcome)) (run cycles : Exec β' _) := by
  refine .next .getCpu fun start => .next (runUntil_alike hS _ _) fun result => ?_
  cases result with
  | error fault => exact .pure rfl
  | ok _ => exact .seq (.same _) (.next .getCpu fun after => .pure rfl)

/-- Machines with equal processors, on buses that answer alike, make every move alike. -/
lemma move_alike {m : Machine β} {m' : Machine β'} (cpu : m.cpu = m'.cpu) (bus : S m.bus m'.bus)
    (next : Move) :
    (m.move next).cpu = (m'.move next).cpu ∧ S (m.move next).bus (m'.move next).bus := by
  cases next with
  | host action => exact ⟨congrArg action.act cpu, bus⟩
  | openSlice budget =>
    have opens : m.cpu.openSlice budget = m'.cpu.openSlice budget := by rw [cpu]
    exact (@checkInterrupts_related _ _ _ _ _ _ Cpu.eq_cycleCongruence hS ⟨_, m.bus⟩ ⟨_, m'.bus⟩
      opens bus).2
  | instruction => exact (executeOne_alike hS cpu bus).2
  | closeSlice => exact ⟨congrArg Cpu.closeSlice cpu, bus⟩

/-- A sequence of moves does the same on buses that answer alike. -/
lemma follow_alike (moves : List Move) : ∀ {m : Machine β} {m' : Machine β'}, m.cpu = m'.cpu →
    S m.bus m'.bus → (m.follow moves).cpu = (m'.follow moves).cpu ∧
      S (m.follow moves).bus (m'.follow moves).bus := by
  induction moves with
  | nil => exact fun cpu bus => ⟨cpu, bus⟩
  | cons first moves ih =>
    intro m m' cpu bus
    obtain ⟨cpu, bus⟩ := move_alike hS cpu bus first
    exact ih cpu bus

/-- A call of a host does the same on buses that answer alike. -/
lemma call_alike {m : Machine β} {m' : Machine β'} (cpu : m.cpu = m'.cpu) (bus : S m.bus m'.bus)
    (next : Call) :
    (m.call next).cpu = (m'.call next).cpu ∧ S (m.call next).bus (m'.call next).bus := by
  cases next with
  | host action => exact ⟨congrArg action.act cpu, bus⟩
  | slice cycles => exact (slice_alike hS cycles cpu bus).2
  | run cycles => exact (run_alike hS cycles cpu bus).2

/-- A session of calls does the same on buses that answer alike. -/
lemma session_alike (calls : List Call) : ∀ {m : Machine β} {m' : Machine β'}, m.cpu = m'.cpu →
    S m.bus m'.bus → (m.session calls).cpu = (m'.session calls).cpu ∧
      S (m.session calls).bus (m'.session calls).bus := by
  induction calls with
  | nil => exact fun cpu bus => ⟨cpu, bus⟩
  | cons first calls ih =>
    intro m m' cpu bus
    obtain ⟨cpu, bus⟩ := call_alike hS cpu bus first
    exact ih cpu bus

end Alike

/-! ## Devices with buses of different width -/

/-- Two machines of devices that differ at most in the width of their buses, in the same state. -/
structure Agree (m m' : Machine (DeviceBus FlatMemory)) : Prop where
  cpu_eq : m.cpu = m'.cpu
  bus : m.bus.Agree m'.bus

/-- The width of the buses cannot be seen. Machines in the same state that make the same moves go through
the same states, and after the same calls they are in the same state, from which a slice and a run have the
same results. -/
theorem bus_width_invisible {m m' : Machine (DeviceBus FlatMemory)} (agree : Agree m m') :
    (∀ moves, Agree (m.follow moves) (m'.follow moves)) ∧
    ∀ calls, Agree (m.session calls) (m'.session calls) ∧
      (∀ cycles, ((slice cycles).run (m.session calls)).1 =
        ((slice cycles).run (m'.session calls)).1) ∧
      ∀ cycles, ((run cycles).run (m.session calls)).1 =
        ((run cycles).run (m'.session calls)).1 := by
  have alike := DeviceBus.agree_answersAlike
  refine ⟨fun moves => ?_, fun calls => ?_⟩
  · obtain ⟨cpu, bus⟩ := follow_alike alike moves agree.cpu_eq agree.bus
    exact ⟨cpu, bus⟩
  · obtain ⟨cpu, bus⟩ := session_alike alike calls agree.cpu_eq agree.bus
    exact ⟨⟨cpu, bus⟩, fun cycles => (slice_alike alike cycles cpu bus).1,
      fun cycles => (run_alike alike cycles cpu bus).1⟩

/-- A device that is about to load a word and to store it in memory and I/O. -/
def storing (width : BusWidth) : Machine (DeviceBus FlatMemory) :=
  powerOn { Variant.e132t.config with programBus := width, ioBus := width }
    (({} : FlatMemory).loadHalves 0
      [0x6541, 0x1122, 0x3344, 0x9814, 0x3100, 0x9814, 0xb000, 0x2002])

/-- The halves that a device with narrow buses writes make up the words that one with wide buses does. -/
theorem storing_either_width :
    Agree (storing .bits32) (storing .bits16) ∧
    let narrow := (storing .bits16).session [.slice 3]
    narrow.bus.host.wordAt 0x100 = 0x11223344 ∧ narrow.bus.host.ioWord 4 = 0x11223344 := by
  have agree : Agree (storing .bits32) (storing .bits16) := ⟨rfl, rfl, rfl, .refl _⟩
  obtain ⟨after, -⟩ := (bus_width_invisible agree).2 [.slice 3]
  have stored : ((storing .bits32).session [.slice 3]).bus.host.wordAt 0x100 = 0x11223344 ∧
      ((storing .bits32).session [.slice 3]).bus.host.ioWord 4 = 0x11223344 := by
    decide +kernel
  rw [after.bus.host.wordAt_eq, after.bus.host.ioWord_eq] at stored
  exact ⟨agree, stored⟩

end Machine

end E1Machine
