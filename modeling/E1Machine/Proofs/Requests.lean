import E1Machine.Bus.Traced
import E1Machine.Proofs.Alignment
import E1Machine.Proofs.Mirrors

/-!
# What a host is asked

A device asks its host for words at multiples of four and for halfwords at even addresses, also where it moves
a word in two halves, and for nothing in the window of its on-chip RAM. Its I/O ports are those of words in the
first 32 KiB, or the halves of these. This holds of every request in every session (`requests_legal`).
-/

namespace E1Machine

/-- Whether a request is one that a host has to expect. -/
def Access.Legal : Access → Prop
  | readByte addr _ | writeByte addr _ => ¬InWindow addr
  | readHalf addr _ | writeHalf addr _ | fetch addr _ => addr.toNat % 2 = 0 ∧ ¬InWindow addr
  | readWord addr _ | writeWord addr _ => addr.toNat % 4 = 0 ∧ ¬InWindow addr
  | ioReadWord io _ | ioWriteWord io _ => io.toNat % 4 = 0 ∧ io.toNat ≤ 0x7ffc
  | ioReadHalf io _ | ioWriteHalf io _ => io.toNat % 2 = 0 ∧ io.toNat ≤ 0x7ffe
  | acknowledge _ => True

/-- The halves of a word are where the word is. -/
lemma halves_outside {addr : Word} (multiple : addr.toNat % 4 = 0) (outside : ¬InWindow addr) :
    (addr.toNat % 2 = 0 ∧ ¬InWindow addr) ∧ (addr + 2).toNat % 2 = 0 ∧ ¬InWindow (addr + 2) := by
  obtain ⟨next, -⟩ := next_location .kib4 (k := 2) (.inr rfl) multiple (by decide)
  refine ⟨⟨by omega, outside⟩, ?_, mt next.1 outside⟩
  bv_omega

/-- The halves of an I/O word have ports of their own. -/
lemma halves_ports (addr : Word) :
    ((ioAddress addr).toNat % 2 = 0 ∧ (ioAddress addr).toNat ≤ 0x7ffe) ∧
      (ioAddress addr + 2).toNat % 2 = 0 ∧ (ioAddress addr + 2).toNat ≤ 0x7ffe := by
  have multiple := ioAddress_aligned addr
  have bounded := ioAddress_le addr
  have next : (ioAddress addr + 2).toNat = (ioAddress addr).toNat + 2 := by bv_omega
  omega

namespace DeviceBus

variable {α β : Type}

/-! ## Words of the host -/

section

variable [Bus β] (d : DeviceBus β)

/-- A word of the host is read in one transfer or two, by the width of the program bus. -/
lemma readHostWord_eq (addr : Word) :
    (readHostWord addr).run d =
      (match d.config.programBus with
        | .bits32 => onHost (Bus.readWord addr)
        | .bits16 => do
          let high ← onHost (Bus.readHalf addr)
          let low ← onHost (Bus.readHalf (addr + 2))
          return high ++ low : StateM (DeviceBus β) Word).run d :=
  rfl

/-- A word of the host is written in one transfer or two, by the width of the program bus. -/
lemma writeHostWord_eq (addr value : Word) :
    (writeHostWord addr value).run d =
      (match d.config.programBus with
        | .bits32 => onHost (Bus.writeWord addr value)
        | .bits16 => do
          onHost (Bus.writeHalf addr (highHalf value))
          onHost (Bus.writeHalf (addr + 2) (lowHalf value)) : StateM (DeviceBus β) Unit).run d :=
  rfl

/-- An I/O word is read in one transfer or two, by the width of the I/O bus. -/
lemma readIoWord_eq (io : Word) :
    (readIoWord io).run d =
      (match d.config.ioBus with
        | .bits32 => onHost (Bus.ioReadWord io)
        | .bits16 => do
          let high ← onHost (Bus.ioReadHalf io)
          let low ← onHost (Bus.ioReadHalf (io + 2))
          return high ++ low : StateM (DeviceBus β) Word).run d :=
  rfl

/-- An I/O word is written in one transfer or two, by the width of the I/O bus. -/
lemma writeIoWord_eq (io value : Word) :
    (writeIoWord io value).run d =
      (match d.config.ioBus with
        | .bits32 => onHost (Bus.ioWriteWord io value)
        | .bits16 => do
          onHost (Bus.ioWriteHalf io (highHalf value))
          onHost (Bus.ioWriteHalf (io + 2) (lowHalf value)) : StateM (DeviceBus β) Unit).run d :=
  rfl

end

/-! ## Legal requests -/

/-- A device that has asked its host for nothing else. -/
structure Polite (d : DeviceBus (Traced β)) : Prop where
  full : d.Full
  legal : ∀ access ∈ d.host.trace, access.Legal

/-- A request of a device that leaves it polite. -/
def KeepsPolite (x : StateM (DeviceBus (Traced β)) α) : Prop :=
  ∀ ⦃d : DeviceBus (Traced β)⦄, d.Polite → (x.run d).2.Polite

namespace KeepsPolite

/-- A device that asks for nothing stays polite. -/
lemma pure (a : α) : KeepsPolite (Pure.pure a : StateM (DeviceBus (Traced β)) α) :=
  fun _ polite => polite

/-- Two polite requests one after another are polite. -/
lemma bind {γ : Type} {x : StateM (DeviceBus (Traced β)) α}
    {f : α → StateM (DeviceBus (Traced β)) γ} (hx : KeepsPolite x) (hf : ∀ a, KeepsPolite (f a)) :
    KeepsPolite (x >>= f) :=
  fun _ polite => hf _ (hx polite)

/-- A legal request of the host. -/
lemma asking {request : StateM β α} (access : α → Access) (legal : ∀ a, (access a).Legal) :
    KeepsPolite (onHost (Traced.recording request access)) := by
  intro d polite
  refine ⟨polite.full, fun other mem => ?_⟩
  obtain old | rfl := Array.mem_push.1 mem
  · exact polite.legal other old
  · exact legal _

/-- Only addresses outside the window are asked for. -/
lemma readVia {addr : Word} (chip : Iram → Nat → α) {outside : StateM (DeviceBus (Traced β)) α}
    (kept : ¬InWindow addr → KeepsPolite outside) : KeepsPolite (readVia addr chip outside) := by
  intro d polite
  rw [polite.full.readVia_run]
  split
  · exact polite
  · next notIn => exact kept notIn polite

/-- A write is polite if it goes to the RAM, or politely to the host. -/
lemma writeVia {addr : Word} {chip : Iram → Nat → Iram}
    (size : ∀ (ram : Iram) (index : Nat), (chip ram index).size = ram.size)
    {outside : StateM (DeviceBus (Traced β)) Unit} (kept : ¬InWindow addr → KeepsPolite outside) :
    KeepsPolite (writeVia addr chip outside) := by
  intro d polite
  rw [polite.full.writeVia_run]
  split
  · exact ⟨(size _ _).trans polite.full, polite.legal⟩
  · next notIn => exact kept notIn polite

variable [Bus β]

/-- A word is asked for in one piece or in its halves. -/
lemma readHostWord {addr : Word} (multiple : addr.toNat % 4 = 0) (outside : ¬InWindow addr) :
    KeepsPolite (readHostWord addr : StateM (DeviceBus (Traced β)) Word) := by
  intro d polite
  have halves := halves_outside multiple outside
  rw [readHostWord_eq]
  cases d.config.programBus with
  | bits32 => exact asking (.readWord addr) (fun _ => ⟨multiple, outside⟩) polite
  | bits16 =>
    exact bind (asking (.readHalf addr) fun _ => halves.1) (fun _ =>
      bind (asking (.readHalf (addr + 2)) fun _ => halves.2) fun _ => pure _) polite

/-- A word outside the window is written politely, whatever the width of the bus. -/
lemma writeHostWord {addr : Word} (multiple : addr.toNat % 4 = 0) (outside : ¬InWindow addr)
    (value : Word) :
    KeepsPolite (writeHostWord addr value : StateM (DeviceBus (Traced β)) Unit) := by
  intro d polite
  have halves := halves_outside multiple outside
  rw [writeHostWord_eq]
  cases d.config.programBus with
  | bits32 =>
    exact asking (fun _ => .writeWord addr value) (fun _ => ⟨multiple, outside⟩) polite
  | bits16 =>
    exact bind (asking (fun _ => .writeHalf addr (highHalf value)) fun _ => halves.1) (fun _ =>
      asking (fun _ => .writeHalf (addr + 2) (lowHalf value)) fun _ => halves.2) polite

/-- An I/O word is asked for at its port or at those of its halves. -/
lemma readIoWord (addr : Word) :
    KeepsPolite (readIoWord (ioAddress addr) : StateM (DeviceBus (Traced β)) Word) := by
  intro d polite
  have halves := halves_ports addr
  rw [readIoWord_eq]
  cases d.config.ioBus with
  | bits32 =>
    exact asking (.ioReadWord (ioAddress addr))
      (fun _ => ⟨ioAddress_aligned addr, ioAddress_le addr⟩) polite
  | bits16 =>
    exact bind (asking (.ioReadHalf (ioAddress addr)) fun _ => halves.1) (fun _ =>
      bind (asking (.ioReadHalf (ioAddress addr + 2)) fun _ => halves.2) fun _ => pure _) polite

/-- An I/O word is written politely, whatever the width of the bus. -/
lemma writeIoWord (addr value : Word) :
    KeepsPolite (writeIoWord (ioAddress addr) value : StateM (DeviceBus (Traced β)) Unit) := by
  intro d polite
  have halves := halves_ports addr
  rw [writeIoWord_eq]
  cases d.config.ioBus with
  | bits32 =>
    exact asking (fun _ => .ioWriteWord (ioAddress addr) value)
      (fun _ => ⟨ioAddress_aligned addr, ioAddress_le addr⟩) polite
  | bits16 =>
    exact bind (asking (fun _ => .ioWriteHalf (ioAddress addr) (highHalf value)) fun _ => halves.1)
      (fun _ => asking (fun _ => .ioWriteHalf (ioAddress addr + 2) (lowHalf value)) fun _ =>
        halves.2) polite

end KeepsPolite

variable [Bus β]

/-- A device passes the aligned requests of its processor on as legal ones. -/
lemma polite_serves : Serves (Polite : DeviceBus (Traced β) → Prop) where
  readByte addr polite :=
    KeepsPolite.readVia _ (fun outside =>
      KeepsPolite.asking (.readByte addr) fun _ => outside) polite
  readHalf {_ addr} even polite :=
    KeepsPolite.readVia _ (fun outside =>
      KeepsPolite.asking (.readHalf addr) fun _ => ⟨even, outside⟩) polite
  readWord multiple polite :=
    KeepsPolite.readVia _ (fun outside => KeepsPolite.readHostWord multiple outside) polite
  writeByte addr value polite :=
    KeepsPolite.writeVia (fun ram index => Iram.size_storeByte ram index value) (fun outside =>
      KeepsPolite.asking (fun _ => .writeByte addr value) fun _ => outside) polite
  writeHalf {_ addr} even value polite :=
    KeepsPolite.writeVia (fun ram index => Iram.size_storeHalf ram index value) (fun outside =>
      KeepsPolite.asking (fun _ => .writeHalf addr value) fun _ => ⟨even, outside⟩) polite
  writeWord multiple value polite :=
    KeepsPolite.writeVia (fun ram index => Iram.size_storeWord ram index value) (fun outside =>
      KeepsPolite.writeHostWord multiple outside value) polite
  fetch {_ addr} even polite :=
    KeepsPolite.readVia _ (fun outside =>
      KeepsPolite.asking (.fetch addr) fun _ => ⟨even, outside⟩) polite
  ioReadWord addr polite := KeepsPolite.readIoWord addr polite
  ioWriteWord addr value polite := KeepsPolite.writeIoWord addr value polite
  acknowledge line polite :=
    KeepsPolite.asking (fun _ => .acknowledge line) (fun _ => trivial) polite

end DeviceBus

namespace Machine

/-- Whatever the configuration, the host and its memory, and whatever the host calls for in whatever order,
every request that reaches the host is legal. -/
theorem requests_legal {β : Type} [Bus β] (config : Config) (host : β) (calls : List Call) :
    ∀ access ∈ ((powerOn config (⟨host, #[]⟩ : Traced β)).session calls).bus.host.trace,
      access.Legal := by
  have start : (powerOn config (⟨host, #[]⟩ : Traced β)).Served DeviceBus.Polite := by
    refine ⟨Cpu.powerOn_aligned config, Iram.size_zeros _, fun access mem => ?_⟩
    cases Array.not_mem_empty access mem
  exact (reaches_served DeviceBus.polite_serves (session_reaches calls _) start).bus.legal

/-- A device with a narrow bus asks its host for the second half of a word that a program stores. -/
theorem second_half_legal :
    Access.writeHalf 0x102 0x3344 ∈
      ((powerOn Variant.e116t.config
          (⟨({} : FlatMemory).loadHalves 0x1000 [0x9814, 0x3100], #[]⟩ : Traced FlatMemory)).session
        [.host (.setGlobal Global.pc 0x1000), .host (.setGlobal 4 0x11223344), .slice 1]).bus.host.trace ∧
    Access.Legal (.writeHalf 0x102 0x3344) := by
  have asked : Access.writeHalf 0x102 0x3344 ∈
      ((powerOn Variant.e116t.config
          (⟨({} : FlatMemory).loadHalves 0x1000 [0x9814, 0x3100], #[]⟩ : Traced FlatMemory)).session
        [.host (.setGlobal Global.pc 0x1000), .host (.setGlobal 4 0x11223344), .slice 1]).bus.host.trace := by
    decide +kernel
  exact ⟨asked, requests_legal _ _ _ _ asked⟩

end Machine

end E1Machine
