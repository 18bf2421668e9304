import E1Machine.Proofs.BusWidth
import Mathlib.Data.List.Induction

/-!
# One memory with a mirrored window

A device over a flat memory is one memory of bytes. Below and above its window every address is a location of
its own; in the window the addresses that agree modulo the capacity of the on-chip RAM are one location.
After any aligned writes of bytes, halfwords and words, an aligned read of any width gives the bytes that were
written last to its locations, the first one highest (`reads_last_written`).
-/

namespace E1Machine

/-! ## The window -/

/-- The addresses that the on-chip RAM answers. -/
def InWindow (addr : Word) : Prop := 0xc0000000 ≤ addr.toNat ∧ addr.toNat ≤ 0xdfffffff

/-- Whether an address lies in the window can be decided by its number. -/
instance : DecidablePred InWindow := fun addr =>
  inferInstanceAs (Decidable (0xc0000000 ≤ addr.toNat ∧ addr.toNat ≤ 0xdfffffff))

/-- Two addresses that name the same byte. -/
def SameLocation (size : IramSize) (a b : Word) : Prop :=
  a = b ∨ InWindow a ∧ InWindow b ∧ a.toNat % size.bytes = b.toNat % size.bytes

/-- Whether two addresses name one byte can be decided by their numbers. -/
instance (size : IramSize) (a b : Word) : Decidable (SameLocation size a b) :=
  inferInstanceAs (Decidable (a = b ∨ InWindow a ∧ InWindow b ∧
    a.toNat % size.bytes = b.toNat % size.bytes))

/-- In the window the on-chip RAM answers, at the address modulo its capacity. -/
lemma iramOffset_eq (size : IramSize) (addr : Word) :
    iramOffset size addr = if InWindow addr then some (addr.toNat % size.bytes) else none := by
  have top : addr.extractLsb' 29 3 = 0b110#3 ↔ InWindow addr := by
    have below := addr.isLt
    rw [← BitVec.toNat_inj, BitVec.extractLsb'_toNat, Nat.shiftRight_eq_div_pow, BitVec.toNat_ofNat]
    unfold InWindow
    omega
  unfold iramOffset
  simp only [top]

/-- The on-chip RAM has four, eight or sixteen kilobytes. -/
lemma IramSize.bytes_cases (size : IramSize) :
    size.bytes = 4096 ∨ size.bytes = 8192 ∨ size.bytes = 16384 := by
  cases size with
  | kib4 => exact .inl rfl
  | kib8 => exact .inr (.inl rfl)
  | kib16 => exact .inr (.inr rfl)

/-- The bytes of an aligned access are on the same side of the border of the window, and in a row also
modulo the capacity of the on-chip RAM. -/
lemma next_location (size : IramSize) {addr k : Word} {width : Nat} (known : width = 2 ∨ width = 4)
    (aligned : addr.toNat % width = 0) (inside : k.toNat < width) :
    (InWindow (addr + k) ↔ InWindow addr) ∧
      (addr + k).toNat % size.bytes = addr.toNat % size.bytes + k.toNat := by
  have below := addr.isLt
  have sum : (addr + k).toNat = addr.toNat + k.toNat := by
    rw [BitVec.toNat_add]
    rcases known with rfl | rfl <;> omega
  unfold InWindow
  rw [sum]
  obtain bytes | bytes | bytes := size.bytes_cases <;> rw [bytes] <;>
    rcases known with rfl | rfl <;> omega

/-- In the window a byte repeats at every capacity. -/
lemma sameLocation_inside {size : IramSize} {a b : Word} (inside : InWindow a) :
    SameLocation size a b ↔ InWindow b ∧ a.toNat % size.bytes = b.toNat % size.bytes := by
  constructor
  · rintro (rfl | ⟨-, same⟩)
    · exact ⟨inside, rfl⟩
    · exact same
  · exact fun same => .inr ⟨inside, same⟩

/-- Outside the window every address names its own byte. -/
lemma sameLocation_outside {size : IramSize} {a b : Word} (outside : ¬InWindow a) :
    SameLocation size a b ↔ a = b :=
  ⟨fun same => same.elim id fun both => absurd both.1 outside, .inl⟩

namespace DeviceBus

/-! ## Bytes of a device -/

/-- The byte at an address: of the on-chip RAM in the window, of the host outside. -/
def byteAt (d : DeviceBus FlatMemory) (addr : Word) : Byte :=
  if InWindow addr then Iram.byteAt d.iram (addr.toNat % d.config.iramSize.bytes)
  else d.host.byteAt addr

/-- Replaces the byte at an address. -/
def storeByte (d : DeviceBus FlatMemory) (addr : Word) (value : Byte) : DeviceBus FlatMemory :=
  if InWindow addr then
    { d with iram := Iram.storeByte d.iram (addr.toNat % d.config.iramSize.bytes) value }
  else { d with host := d.host.storeByte addr value }

/-- A device whose on-chip RAM has the capacity that its configuration says. -/
def Full {β : Type} (d : DeviceBus β) : Prop := d.iram.size = d.config.iramSize.bytes

/-- A byte in the window is stored in the RAM. -/
lemma storeByte_inside (d : DeviceBus FlatMemory) {addr : Word} (inside : InWindow addr)
    (value : Byte) : d.storeByte addr value =
      { d with iram := Iram.storeByte d.iram (addr.toNat % d.config.iramSize.bytes) value } :=
  if_pos inside

/-- A byte outside the window is stored by the host. -/
lemma storeByte_outside (d : DeviceBus FlatMemory) {addr : Word} (outside : ¬InWindow addr)
    (value : Byte) : d.storeByte addr value = { d with host := d.host.storeByte addr value } :=
  if_neg outside

/-- A byte in the window is read from the RAM. -/
lemma byteAt_inside (d : DeviceBus FlatMemory) {addr : Word} (inside : InWindow addr) :
    d.byteAt addr = Iram.byteAt d.iram (addr.toNat % d.config.iramSize.bytes) :=
  if_pos inside

/-- A byte outside the window is read from the host. -/
lemma byteAt_outside (d : DeviceBus FlatMemory) {addr : Word} (outside : ¬InWindow addr) :
    d.byteAt addr = d.host.byteAt addr :=
  if_neg outside

/-- The RAM of a device with full capacity is not empty. -/
lemma Full.positive {β : Type} {d : DeviceBus β} (full : d.Full) : 0 < d.iram.size := by
  obtain bytes | bytes | bytes := d.config.iramSize.bytes_cases <;> rw [full, bytes] <;> decide

/-- Storing a byte leaves the RAM its capacity. -/
lemma Full.storeByte {d : DeviceBus FlatMemory} (full : d.Full) (addr : Word) (value : Byte) :
    (d.storeByte addr value).Full := by
  unfold DeviceBus.storeByte
  split
  · exact (Iram.size_storeByte ..).trans full
  · exact full

/-- Storing a byte keeps the configuration. -/
lemma storeByte_config (d : DeviceBus FlatMemory) (addr : Word) (value : Byte) :
    (d.storeByte addr value).config = d.config := by
  unfold storeByte
  split <;> rfl

/-- A byte reads back at every address of its location, and no other location changes. -/
lemma byteAt_storeByte {d : DeviceBus FlatMemory} (full : d.Full) (a b : Word) (value : Byte) :
    (d.storeByte a value).byteAt b =
      if SameLocation d.config.iramSize a b then value else d.byteAt b := by
  by_cases inside : InWindow a
  · rw [d.storeByte_inside inside]
    -- In the window locations are offsets modulo the size of the RAM, outside they are addresses.
    simp only [sameLocation_inside inside]
    by_cases insideToo : InWindow b
    · rw [byteAt_inside _ insideToo, byteAt_inside _ insideToo]
      simp only [Iram.byteAt_storeByte _ _ _ _ full.positive, insideToo, true_and]
      rw [full, Nat.mod_mod, Nat.mod_mod]
    · rw [byteAt_outside _ insideToo, byteAt_outside _ insideToo,
        if_neg fun same => insideToo same.1]
  · rw [d.storeByte_outside inside]
    simp only [sameLocation_outside inside]
    by_cases same : a = b
    · subst same
      rw [byteAt_outside _ inside, FlatMemory.byteAt_storeByte, if_pos rfl, if_pos rfl]
    · rw [if_neg same]
      unfold byteAt
      rw [FlatMemory.byteAt_storeByte, if_neg same]

/-! ## Requests in the window -/

/-- In the window an address is reduced modulo the capacity. -/
lemma Full.iramIndex_eq {β : Type} {d : DeviceBus β} (full : d.Full) (addr : Word) :
    d.iramIndex addr =
      if InWindow addr then some (addr.toNat % d.config.iramSize.bytes) else none := by
  have nonempty : d.iram.isEmpty = false := decide_eq_false (Nat.ne_of_gt full.positive)
  unfold iramIndex
  rw [nonempty, if_neg Bool.false_ne_true, iramOffset_eq, full]
  split
  · exact congrArg some (Nat.mod_mod _ _)
  · rfl

/-- A read goes to the RAM or to the host as the index of its address says. -/
lemma readVia_eq {α β : Type} (d : DeviceBus β) (addr : Word) (chip : Iram → Nat → α)
    (outside : StateM (DeviceBus β) α) :
    (readVia addr chip outside).run d =
      (match d.iramIndex addr with
        | some index => pure (chip d.iram index)
        | none => outside : StateM (DeviceBus β) α).run d :=
  rfl

/-- A write goes to the RAM or to the host as the index of its address says. -/
lemma writeVia_eq {β : Type} (d : DeviceBus β) (addr : Word) (chip : Iram → Nat → Iram)
    (outside : StateM (DeviceBus β) Unit) :
    (writeVia addr chip outside).run d =
      (match d.iramIndex addr with
        | some index => modifyIram (chip · index)
        | none => outside : StateM (DeviceBus β) Unit).run d :=
  rfl

/-- A read in the window is one of the on-chip RAM. -/
lemma Full.readVia_run {α β : Type} {d : DeviceBus β} (full : d.Full) (addr : Word)
    (chip : Iram → Nat → α) (outside : StateM (DeviceBus β) α) :
    (readVia addr chip outside).run d =
      if InWindow addr then (chip d.iram (addr.toNat % d.config.iramSize.bytes), d)
      else outside.run d := by
  rw [readVia_eq, full.iramIndex_eq]
  by_cases inside : InWindow addr
  · rw [if_pos inside, if_pos inside]
    rfl
  · rw [if_neg inside, if_neg inside]

/-- A write in the window is one to the on-chip RAM. -/
lemma Full.writeVia_run {β : Type} {d : DeviceBus β} (full : d.Full) (addr : Word)
    (chip : Iram → Nat → Iram) (outside : StateM (DeviceBus β) Unit) :
    ((writeVia addr chip outside).run d).2 =
      if InWindow addr then { d with iram := chip d.iram (addr.toNat % d.config.iramSize.bytes) }
      else (outside.run d).2 := by
  rw [writeVia_eq, full.iramIndex_eq]
  by_cases inside : InWindow addr
  · rw [if_pos inside, if_pos inside]
    rfl
  · rw [if_neg inside, if_neg inside]

/-! ## Reads -/

section Reads

variable {d : DeviceBus FlatMemory} (full : d.Full) {addr : Word}
include full

/-- A byte is read at its address. -/
lemma readByte_run : (Bus.readByte addr).run d = (d.byteAt addr, d) := by
  refine (full.readVia_run addr _ _).trans ?_
  by_cases inside : InWindow addr
  · rw [if_pos inside, byteAt_inside _ inside]
  · rw [if_neg inside, byteAt_outside _ inside]
    rfl

/-- A halfword, and one of the instruction stream, is read from two bytes, the higher first. -/
lemma readHalf_run (aligned : addr.toNat % 2 = 0) :
    (Bus.readHalf addr).run d = (d.byteAt addr ++ d.byteAt (addr + 1), d) ∧
      (Bus.fetch addr).run d = (d.byteAt addr ++ d.byteAt (addr + 1), d) := by
  obtain ⟨next, offset⟩ :=
    next_location d.config.iramSize (k := 1) (.inl rfl) aligned (by decide)
  have half : (if InWindow addr
      then (Iram.halfAt d.iram (addr.toNat % d.config.iramSize.bytes), d)
      else (d.host.halfAt addr, d)) = (d.byteAt addr ++ d.byteAt (addr + 1), d) := by
    by_cases inside : InWindow addr
    · rw [if_pos inside, byteAt_inside _ inside, byteAt_inside _ (next.2 inside), offset]
      rfl
    · rw [if_neg inside, byteAt_outside _ inside, byteAt_outside _ (mt next.1 inside)]
      rfl
  exact ⟨(full.readVia_run addr _ _).trans half, (full.readVia_run addr _ _).trans half⟩

/-- A word is read from four bytes, the highest first. -/
lemma readWord_run (aligned : addr.toNat % 4 = 0) :
    (Bus.readWord addr).run d =
      (d.byteAt addr ++ d.byteAt (addr + 1) ++ d.byteAt (addr + 2) ++ d.byteAt (addr + 3), d) := by
  obtain ⟨next₁, offset₁⟩ :=
    next_location d.config.iramSize (k := 1) (.inr rfl) aligned (by decide)
  obtain ⟨next₂, offset₂⟩ :=
    next_location d.config.iramSize (k := 2) (.inr rfl) aligned (by decide)
  obtain ⟨next₃, offset₃⟩ :=
    next_location d.config.iramSize (k := 3) (.inr rfl) aligned (by decide)
  refine (full.readVia_run addr _ _).trans ?_
  by_cases inside : InWindow addr
  · rw [if_pos inside, byteAt_inside _ inside, byteAt_inside _ (next₁.2 inside),
      byteAt_inside _ (next₂.2 inside), byteAt_inside _ (next₃.2 inside), offset₁, offset₂, offset₃]
    rfl
  · rw [if_neg inside, readHostWord_run, byteAt_outside _ inside,
      byteAt_outside _ (mt next₁.1 inside), byteAt_outside _ (mt next₂.1 inside),
      byteAt_outside _ (mt next₃.1 inside)]
    rfl

end Reads

end DeviceBus

/-! ## Writes -/

/-- A byte, halfword or word to be written, with its address. -/
inductive Write where
  | byte (addr : Word) (value : Byte)
  | half (addr : Word) (value : Half)
  | word (addr value : Word)

namespace Write

/-- The address of a write. -/
def addr : Write → Word
  | byte addr _ | half addr _ | word addr _ => addr

/-- Whether a write is naturally aligned. -/
def Aligned : Write → Prop
  | byte _ _ => True
  | half addr _ => addr.toNat % 2 = 0
  | word addr _ => addr.toNat % 4 = 0

/-- Whether a write is aligned can be decided by its address. -/
instance : DecidablePred Aligned
  | byte _ _ => inferInstanceAs (Decidable True)
  | half addr _ => inferInstanceAs (Decidable (addr.toNat % 2 = 0))
  | word addr _ => inferInstanceAs (Decidable (addr.toNat % 4 = 0))

/-- The request that is made of the bus. -/
def request {β : Type} [Bus β] : Write → StateM β Unit
  | byte addr value => Bus.writeByte addr value
  | half addr value => Bus.writeHalf addr value
  | word addr value => Bus.writeWord addr value

/-- The bytes of a write with their addresses, the highest first. -/
def bytes : Write → List (Word × Byte)
  | byte addr value => [(addr, value)]
  | half addr value => [(addr, value.extractLsb' 8 8), (addr + 1, value.extractLsb' 0 8)]
  | word addr value =>
    [(addr, value.extractLsb' 24 8), (addr + 1, value.extractLsb' 16 8),
      (addr + 2, value.extractLsb' 8 8), (addr + 3, value.extractLsb' 0 8)]

end Write

namespace DeviceBus

/-- The device after the bytes of a history were stored. -/
def storeAll (d : DeviceBus FlatMemory) (stores : List (Word × Byte)) : DeviceBus FlatMemory :=
  stores.foldl (fun d store => d.storeByte store.1 store.2) d

/-- The device after the requests of a history. -/
def writeAll (d : DeviceBus FlatMemory) (writes : List Write) : DeviceBus FlatMemory :=
  writes.foldl (fun d write => (write.request.run d).2) d

/-- An aligned write stores its bytes one by one. -/
lemma Full.request_run {d : DeviceBus FlatMemory} (full : d.Full) {write : Write}
    (aligned : write.Aligned) : (write.request.run d).2 = d.storeAll write.bytes := by
  cases write with
  | byte addr value => exact full.writeVia_run ..
  | half addr value =>
    obtain ⟨next, offset⟩ :=
      next_location d.config.iramSize (k := 1) (.inl rfl) aligned (by decide)
    refine (full.writeVia_run ..).trans ?_
    -- The bytes are neighbours, also in the mirrors of the RAM, because the access is aligned.
    show _ = (d.storeByte addr _).storeByte (addr + 1) _
    by_cases inside : InWindow addr
    · rw [if_pos inside, storeByte_inside _ (next.2 inside), storeByte_inside _ inside, offset]
      rfl
    · rw [if_neg inside, storeByte_outside _ (mt next.1 inside), storeByte_outside _ inside]
      rfl
  | word addr value =>
    obtain ⟨next₁, offset₁⟩ :=
      next_location d.config.iramSize (k := 1) (.inr rfl) aligned (by decide)
    obtain ⟨next₂, offset₂⟩ :=
      next_location d.config.iramSize (k := 2) (.inr rfl) aligned (by decide)
    obtain ⟨next₃, offset₃⟩ :=
      next_location d.config.iramSize (k := 3) (.inr rfl) aligned (by decide)
    refine (full.writeVia_run ..).trans ?_
    show _ = (((d.storeByte addr _).storeByte (addr + 1) _).storeByte (addr + 2) _).storeByte
      (addr + 3) _
    by_cases inside : InWindow addr
    · rw [if_pos inside, storeByte_inside _ (next₃.2 inside), storeByte_inside _ (next₂.2 inside),
        storeByte_inside _ (next₁.2 inside), storeByte_inside _ inside, offset₁, offset₂, offset₃]
      rfl
    · rw [if_neg inside, storeByte_outside _ (mt next₃.1 inside),
        storeByte_outside _ (mt next₂.1 inside), storeByte_outside _ (mt next₁.1 inside),
        storeByte_outside _ inside, writeHostWord_run]
      rfl

/-- A write in the window leaves the host alone, and a write outside the on-chip RAM. -/
lemma Full.request_side {d : DeviceBus FlatMemory} (full : d.Full) (write : Write) :
    (InWindow write.addr → (write.request.run d).2.host = d.host) ∧
      (¬InWindow write.addr → (write.request.run d).2.iram = d.iram) := by
  have side (addr : Word) (chip : Iram → Nat → Iram)
      (outside : StateM (DeviceBus FlatMemory) Unit) (kept : (outside.run d).2.iram = d.iram) :
      (InWindow addr → ((writeVia addr chip outside).run d).2.host = d.host) ∧
        (¬InWindow addr → ((writeVia addr chip outside).run d).2.iram = d.iram) := by
    rw [full.writeVia_run]
    constructor
    · intro inside
      rw [if_pos inside]
    · intro outside
      rw [if_neg outside, kept]
  cases write with
  | byte addr value => exact side addr _ _ rfl
  | half addr value => exact side addr _ _ rfl
  | word addr value => exact side addr _ _ (by rw [writeHostWord_run])

/-! ## Histories -/

/-- The value that a history stored last at the location of an address, if it stored one there. -/
def lastStored (size : IramSize) (stores : List (Word × Byte)) (addr : Word) : Option Byte :=
  (stores.reverse.find? fun store => SameLocation size store.1 addr).map (·.2)

/-- A history with one store more stores that one last. -/
lemma storeAll_concat (d : DeviceBus FlatMemory) (stores : List (Word × Byte)) (store : Word × Byte) :
    d.storeAll (stores ++ [store]) = (d.storeAll stores).storeByte store.1 store.2 :=
  List.foldl_append ..

/-- A history with one store more has stored that one last at its location. -/
lemma lastStored_concat (size : IramSize) (stores : List (Word × Byte)) (store : Word × Byte)
    (addr : Word) : lastStored size (stores ++ [store]) addr =
      if SameLocation size store.1 addr then some store.2 else lastStored size stores addr := by
  unfold lastStored
  rw [List.reverse_append, List.reverse_singleton, List.singleton_append, List.find?_cons]
  by_cases same : SameLocation size store.1 addr
  · rw [decide_eq_true same, if_pos same]
    rfl
  · rw [decide_eq_false same, if_neg same]

/-- After any stores each location has the byte that was stored there last, or the one it had. -/
lemma Full.storeAll {d : DeviceBus FlatMemory} (full : d.Full) (stores : List (Word × Byte)) :
    (d.storeAll stores).Full ∧ (d.storeAll stores).config = d.config ∧
      ∀ addr, (d.storeAll stores).byteAt addr =
        (lastStored d.config.iramSize stores addr).getD (d.byteAt addr) := by
  induction stores using List.reverseRecOn with
  | nil => exact ⟨full, rfl, fun _ => rfl⟩
  | append_singleton stores store ih =>
    obtain ⟨full, config, bytes⟩ := ih
    refine ⟨?_, ?_, fun addr => ?_⟩
    · rw [storeAll_concat]
      exact full.storeByte _ _
    · rw [storeAll_concat, storeByte_config, config]
    · rw [storeAll_concat, byteAt_storeByte full, config, lastStored_concat, bytes]
      split <;> rfl

/-- Aligned writes store their bytes in order. -/
lemma Full.writeAll_eq {writes : List Write} (aligned : ∀ write ∈ writes, write.Aligned) :
    ∀ {d : DeviceBus FlatMemory}, d.Full →
      d.writeAll writes = d.storeAll (writes.flatMap Write.bytes) := by
  induction writes with
  | nil => exact fun _ => rfl
  | cons write writes ih =>
    intro d full
    rw [List.forall_mem_cons] at aligned
    show DeviceBus.writeAll (write.request.run d).2 writes = _
    rw [full.request_run aligned.1, ih aligned.2 (full.storeAll write.bytes).1]
    exact (List.foldl_append ..).symm

/-- One memory of bytes with a mirrored window. After any aligned writes, every aligned read of any width
gives, the first one highest, the bytes that were written last to the locations it names, or the ones that
were there at the beginning; reading changes nothing. A write in the window leaves the host as it was, and a
write outside the on-chip RAM. -/
theorem reads_last_written {d : DeviceBus FlatMemory} (full : d.iram.size = d.config.iramSize.bytes)
    {writes : List Write} (aligned : ∀ write ∈ writes, write.Aligned) :
    let after := d.writeAll writes
    let byte addr :=
      (lastStored d.config.iramSize (writes.flatMap Write.bytes) addr).getD (d.byteAt addr)
    (∀ addr, (Bus.readByte addr).run after = (byte addr, after)) ∧
    (∀ addr, addr.toNat % 2 = 0 →
      (Bus.readHalf addr).run after = (byte addr ++ byte (addr + 1), after) ∧
      (Bus.fetch addr).run after = (byte addr ++ byte (addr + 1), after)) ∧
    (∀ addr, addr.toNat % 4 = 0 → (Bus.readWord addr).run after =
      (byte addr ++ byte (addr + 1) ++ byte (addr + 2) ++ byte (addr + 3), after)) ∧
    ∀ write : Write,
      (InWindow write.addr → (write.request.run after).2.host = after.host) ∧
      (¬InWindow write.addr → (write.request.run after).2.iram = after.iram) := by
  intro after byte
  -- The writes are one history of bytes, and the bytes found after it are those that it stored last.
  have stored : after = d.storeAll (writes.flatMap Write.bytes) := Full.writeAll_eq aligned full
  obtain ⟨fullAfter, -, bytes⟩ := Full.storeAll full (writes.flatMap Write.bytes)
  rw [← stored] at fullAfter bytes
  have bytes : byte = after.byteAt := funext fun addr => (bytes addr).symm
  rw [bytes]
  exact ⟨fun addr => readByte_run fullAfter, fun addr => readHalf_run fullAfter,
    fun addr => readWord_run fullAfter, fullAfter.request_side⟩

/-- Writes of every width that meet in one word of the on-chip RAM through its mirrors, and one outside. -/
def mirrored : List Write :=
  [.word 0xc0001000 0x11223344, .half 0xdffff002 0xaabb, .byte 0xc0000003 0xcc, .word 0x1000 0x55667788]

/-- A word is read through another mirror than the ones it was written through. -/
theorem mirrored_read :
    let d : DeviceBus FlatMemory := ⟨Variant.e132t.config, Iram.zeros .kib4, {}⟩
    (d.iram.size = d.config.iramSize.bytes ∧ ∀ write ∈ mirrored, write.Aligned) ∧
      ((Bus.readWord 0xc0003000).run (d.writeAll mirrored)).1 = 0x1122aacc ∧
      ((Bus.fetch 0x1002).run (d.writeAll mirrored)).1 = 0x7788 := by
  intro d
  have full : d.iram.size = d.config.iramSize.bytes := Iram.size_zeros .kib4
  have aligned : ∀ write ∈ mirrored, write.Aligned := by decide
  obtain ⟨-, half, word, -⟩ := reads_last_written full aligned
  refine ⟨⟨full, aligned⟩, ?_, ?_⟩
  · rw [word _ (by decide)]
    decide +kernel
  · rw [(half _ (by decide)).2]
    decide +kernel

end DeviceBus

end E1Machine
