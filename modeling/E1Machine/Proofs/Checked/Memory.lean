import E1Machine.Proofs.BusWidth
import E1Machine.Proofs.Checked.Numbers
import E1Machine.Proofs.Mirrors

/-!
# Checked memory

A device bus whose on-chip RAM is an array that is read and written within its bounds. Once an access has failed
nothing is left of the bus. On a device whose RAM has the size that its configuration says no access fails, and
every request is answered as by the exact bus (`CheckedBus.answersAlike`).
-/

namespace E1Machine

/-- A device bus with a checked on-chip RAM, of which nothing is left after a failure. -/
structure CheckedBus (β : Type) where
  /-- The device bus, unless an access has failed. -/
  device : Option (DeviceBus β)

namespace Checked

variable {α β : Type}

/-! ## On-chip RAM -/

/-- The index of an address in the on-chip RAM, if it is there: a remainder by the size of the RAM. -/
def iramIndex (d : DeviceBus β) (addr : Word) : Option (Option Nat) :=
  if d.iram.isEmpty then some none
  else
    match iramOffset d.config.iramSize addr with
    | none => some none
    | some offset => do
      let size ← divisor d.iram.size
      return some (offset % size)

/-- The place of the byte that follows an index by `n`. -/
def ramPlace (ram : Iram) (index n : Nat) : Option Nat := do
  let place ← unsigned 64 (index + n)
  let size ← divisor ram.size
  return place % size

/-- The byte that follows an index by `n`. -/
def ramByte (ram : Iram) (index n : Nat) : Option Byte := do
  let place ← ramPlace ram index n
  ram[place]?

/-- Replaces the byte that follows an index by `n`, by the byte of a value of so many bytes. -/
def setRamByte (bytes : Nat) (value : Word) (ram : Iram) (index n : Nat) : Option Iram := do
  let last ← difference bytes 1
  let after ← difference last n
  let places ← amount 32 (8 * after)
  let place ← ramPlace ram index n
  if inside : place < ram.size then some (ram.set place ((value >>> places).setWidth 8) inside) else none

/-- The halfword at an index of the RAM, byte by byte. -/
def ramHalf (ram : Iram) (index : Nat) : Option Half := do
  let high ← ramByte ram index 0
  let low ← ramByte ram index 1
  return high ++ low

/-- The word at an index of the RAM, byte by byte. -/
def ramWord (ram : Iram) (index : Nat) : Option Word := do
  let b3 ← ramByte ram index 0
  let b2 ← ramByte ram index 1
  let b1 ← ramByte ram index 2
  let b0 ← ramByte ram index 3
  return b3 ++ b2 ++ b1 ++ b0

/-- Replaces the halfword at an index of the RAM, byte by byte. -/
def setRamHalf (ram : Iram) (index : Nat) (value : Half) : Option Iram := do
  let ram ← setRamByte 2 (value.setWidth 32) ram index 0
  setRamByte 2 (value.setWidth 32) ram index 1

/-- Replaces the word at an index of the RAM, byte by byte. -/
def setRamWord (ram : Iram) (index : Nat) (value : Word) : Option Iram := do
  let ram ← setRamByte 4 value ram index 0
  let ram ← setRamByte 4 value ram index 1
  let ram ← setRamByte 4 value ram index 2
  setRamByte 4 value ram index 3

/-- A place in the RAM can always be made, if the index is far from the greatest number. -/
lemma ramPlace_eq {ram : Iram} (positive : 0 < ram.size) {index n : Nat} (fits : index + n < 2 ^ 64) :
    ramPlace ram index n = some ((index + n) % ram.size) :=
  proceeds (unsigned_eq fits) (proceeds (divisor_eq (Nat.ne_of_gt positive)) rfl)

/-- A byte of the RAM can always be read, if the index is far from the greatest number. -/
lemma ramByte_eq {ram : Iram} (positive : 0 < ram.size) {index n : Nat} (fits : index + n < 2 ^ 64) :
    ramByte ram index n = some (ram.byteAt (index + n)) := by
  refine proceeds (ramPlace_eq positive fits) ?_
  have inside := Nat.mod_lt (index + n) positive
  rw [Array.getElem?_eq_getElem inside, Iram.byteAt, Array.getD_eq_getD_getElem?,
    Array.getElem?_eq_getElem inside]
  rfl

/-- A byte of the RAM can always be replaced by one of a value, if the index is far from the greatest number. -/
lemma setRamByte_eq {ram : Iram} (positive : 0 < ram.size) {bytes index n : Nat} (few : bytes ≤ 4)
    (one : n < bytes) (fits : index + n < 2 ^ 64) (value : Word) :
    setRamByte bytes value ram index n =
      some (ram.storeByte (index + n) ((value >>> (8 * (bytes - 1 - n))).setWidth 8)) := by
  refine proceeds (difference_eq (by omega)) (proceeds (difference_eq (by omega))
    (proceeds (amount_eq (by omega)) (proceeds (ramPlace_eq positive fits) ?_)))
  have inside := Nat.mod_lt (index + n) positive
  rw [dif_pos inside, Iram.storeByte, Array.setIfInBounds, dif_pos inside]

/-- A byte of a value is what a shift brings to its end. -/
lemma shiftedByte_eq {w : Nat} (short : w ≤ 32) (value : BitVec w) (n : Nat) :
    ((value.setWidth 32) >>> n).setWidth 8 = value.extractLsb' n 8 := by
  have fits : value.toNat < 2 ^ 32 :=
    Nat.lt_of_lt_of_le value.isLt (Nat.pow_le_pow_right (by decide) short)
  apply BitVec.eq_of_toNat_eq
  rw [BitVec.toNat_setWidth, BitVec.toNat_ushiftRight, BitVec.toNat_setWidth, BitVec.extractLsb'_toNat,
    Nat.mod_eq_of_lt fits]

section

variable {ram : Iram} (positive : 0 < ram.size) {index : Nat} (early : index < 2 ^ 32)
include positive early

/-- A halfword of the RAM can always be read. -/
lemma ramHalf_eq : ramHalf ram index = some (ram.halfAt index) :=
  proceeds (ramByte_eq positive (by omega)) (proceeds (ramByte_eq positive (by omega)) rfl)

/-- A word of the RAM can always be read. -/
lemma ramWord_eq : ramWord ram index = some (ram.wordAt index) :=
  proceeds (ramByte_eq positive (by omega)) (proceeds (ramByte_eq positive (by omega))
    (proceeds (ramByte_eq positive (by omega)) (proceeds (ramByte_eq positive (by omega)) rfl)))

/-- A byte of the RAM can always be replaced by another. -/
lemma setRamByte_whole (value : Byte) :
    setRamByte 1 (value.setWidth 32) ram index 0 = some (ram.storeByte index value) := by
  refine (setRamByte_eq positive (by decide) (by decide) (by omega) _).trans ?_
  rw [shiftedByte_eq (by decide), BitVec.extractLsb'_eq_self]
  rfl

/-- A halfword of the RAM can always be replaced. -/
lemma setRamHalf_eq (value : Half) : setRamHalf ram index value = some (ram.storeHalf index value) := by
  refine proceeds (setRamByte_eq positive (by decide) (by decide) (by omega) _)
    ((setRamByte_eq (by rwa [Iram.size_storeByte]) (by decide) (by decide) (by omega) _).trans ?_)
  rw [shiftedByte_eq (by decide), shiftedByte_eq (by decide)]
  rfl

/-- A word of the RAM can always be replaced. -/
lemma setRamWord_eq (value : Word) : setRamWord ram index value = some (ram.storeWord index value) := by
  have byte (n : Nat) : (value >>> n).setWidth 8 = value.extractLsb' n 8 := by
    rw [← shiftedByte_eq (by decide) value n, BitVec.setWidth_eq]
  refine proceeds (setRamByte_eq positive (by decide) (by decide) (by omega) _)
    (proceeds (setRamByte_eq ?_ (by decide) (by decide) (by omega) _)
      (proceeds (setRamByte_eq ?_ (by decide) (by decide) (by omega) _)
        ((setRamByte_eq ?_ (by decide) (by decide) (by omega) _).trans ?_)))
  · rwa [Iram.size_storeByte]
  · rwa [Iram.size_storeByte, Iram.size_storeByte]
  · rwa [Iram.size_storeByte, Iram.size_storeByte, Iram.size_storeByte]
  · rw [byte, byte, byte, byte]
    rfl

end

/-! ## Requests -/

/-- Makes an access that can fail. -/
def attempt [Inhabited α] (access : StateT (DeviceBus β) Option α) : StateM (CheckedBus β) α := fun b =>
  match b.device with
  | none => (default, ⟨none⟩)
  | some d =>
    match access.run d with
    | none => (default, ⟨none⟩)
    | some (a, d) => (a, ⟨some d⟩)

/-- A read that goes to the on-chip RAM if the address is there. -/
def readVia (addr : Word) (chip : Iram → Nat → Option α) (outside : StateM (DeviceBus β) α) :
    StateT (DeviceBus β) Option α := fun d => do
  match ← iramIndex d addr with
  | some index => return (← chip d.iram index, d)
  | none => return outside.run d

/-- A write that goes to the on-chip RAM if the address is there. -/
def writeVia (addr : Word) (chip : Iram → Nat → Option Iram) (outside : StateM (DeviceBus β) Unit) :
    StateT (DeviceBus β) Option Unit := fun d => do
  match ← iramIndex d addr with
  | some index => return ((), { d with iram := ← chip d.iram index })
  | none => return outside.run d

/-- A request that has nothing to do with the on-chip RAM. -/
def elsewhere (request : StateM (DeviceBus β) α) : StateT (DeviceBus β) Option α := fun d =>
  some (request.run d)

/-- The requests of the processor, with every access to the on-chip RAM checked. -/
instance [Bus β] : Bus (CheckedBus β) where
  readByte addr := attempt (readVia addr (ramByte · · 0) (DeviceBus.onHost (Bus.readByte addr)))
  readHalf addr := attempt (readVia addr ramHalf (DeviceBus.onHost (Bus.readHalf addr)))
  readWord addr := attempt (readVia addr ramWord (DeviceBus.readHostWord addr))
  writeByte addr value :=
    attempt (writeVia addr (setRamByte 1 (value.setWidth 32) · · 0)
      (DeviceBus.onHost (Bus.writeByte addr value)))
  writeHalf addr value :=
    attempt (writeVia addr (setRamHalf · · value) (DeviceBus.onHost (Bus.writeHalf addr value)))
  writeWord addr value :=
    attempt (writeVia addr (setRamWord · · value) (DeviceBus.writeHostWord addr value))
  fetch addr := attempt (readVia addr ramHalf (DeviceBus.onHost (Bus.fetch addr)))
  ioReadWord io := attempt (elsewhere (DeviceBus.readIoWord io))
  ioWriteWord io value := attempt (elsewhere (DeviceBus.writeIoWord io value))
  acknowledge line := attempt (elsewhere (DeviceBus.onHost (Bus.acknowledge line)))

/-- A device of a configuration, whose RAM has the size that it says. -/
structure Fits (config : Config) (d : DeviceBus β) : Prop where
  full : d.Full
  same : d.config = config

/-- A checked bus on which no access has failed, and the device bus. -/
def Stands (config : Config) (b : CheckedBus β) (d : DeviceBus β) : Prop := b = ⟨some d⟩ ∧ Fits config d

variable {config : Config}

/-- An access that does not fail on a device, and leaves its configuration and the size of its RAM. -/
def Succeeds (config : Config) (x : StateT (DeviceBus β) Option α) (y : StateM (DeviceBus β) α) : Prop :=
  ∀ ⦃d⦄, Fits config d → x.run d = some (y.run d) ∧ Fits config (y.run d).2

/-- An access that does not fail is answered as on the device bus. -/
lemma Succeeds.answers [Inhabited α] {x : StateT (DeviceBus β) Option α} {y : StateM (DeviceBus β) α}
    (succeeds : Succeeds config x y) : Answers (Stands config) (attempt x) y := by
  rintro _ d ⟨rfl, fits⟩
  obtain ⟨done, kept⟩ := succeeds fits
  have run : (attempt x).run ⟨some d⟩ = ((y.run d).1, ⟨some (y.run d).2⟩) := by
    show (match x.run d with
      | none => ((default : α), (⟨none⟩ : CheckedBus β))
      | some (a, d) => (a, ⟨some d⟩)) = _
    rw [done]
    rfl
  rw [run]
  exact ⟨rfl, rfl, kept⟩

/-- The index of an address can always be made, if the RAM has its full size. -/
lemma iramIndex_eq {d : DeviceBus β} (full : d.Full) (addr : Word) :
    iramIndex d addr = some (d.iramIndex addr) := by
  unfold iramIndex DeviceBus.iramIndex
  split
  · rfl
  · cases iramOffset d.config.iramSize addr with
    | none => rfl
    | some offset => exact proceeds (divisor_eq (Nat.ne_of_gt full.positive)) rfl

/-- The index of an address is less than the number of addresses. -/
lemma iramIndex_lt {d : DeviceBus β} (full : d.Full) {addr : Word} {index : Nat}
    (inside : d.iramIndex addr = some index) : index < 2 ^ 32 := by
  rw [full.iramIndex_eq] at inside
  split at inside
  · cases inside
    exact Nat.lt_of_le_of_lt (Nat.mod_le _ _) addr.isLt
  · cases inside

/-- Requests that leave the configuration of the device and the size of its RAM. -/
def Outside (config : Config) (y : StateM (DeviceBus β) α) : Prop :=
  ∀ ⦃d⦄, Fits config d → Fits config (y.run d).2

/-- Requests to the host leave the device as it is. -/
lemma Outside.onHost (access : StateM β α) : Outside config (DeviceBus.onHost access) :=
  fun _ fits => ⟨fits.full, fits.same⟩

/-- Two requests in a row leave what each of them leaves. -/
lemma Outside.bind {γ : Type} {x : StateM (DeviceBus β) α} {f : α → StateM (DeviceBus β) γ}
    (first : Outside config x) (rest : ∀ a, Outside config (f a)) : Outside config (x >>= f) :=
  fun _ fits => rest _ (first fits)

/-- A value that is returned leaves the device as it is. -/
lemma Outside.pure (a : α) : Outside config (Pure.pure a : StateM (DeviceBus β) α) := fun _ fits => fits

/-- A request over a bus of either width. -/
lemma Outside.either {width : DeviceBus β → BusWidth} {x y : StateM (DeviceBus β) α}
    (whole : Outside config x) (halves : Outside config y) :
    Outside config (get >>= fun d => match width d with
      | .bits32 => x
      | .bits16 => y) := by
  intro d fits
  show Fits config ((match width d with
    | .bits32 => x
    | .bits16 => y).run d).2
  cases width d with
  | bits32 => exact whole fits
  | bits16 => exact halves fits

/-- A request that has nothing to do with the on-chip RAM succeeds. -/
lemma Outside.elsewhere {y : StateM (DeviceBus β) α} (outside : Outside config y) :
    Succeeds config (elsewhere y) y :=
  fun _ fits => ⟨rfl, outside fits⟩

/-- A read succeeds, if the RAM can be read at every index. -/
lemma Outside.readVia {chip : Iram → Nat → α} {chip' : Iram → Nat → Option α}
    {y : StateM (DeviceBus β) α} (outside : Outside config y) (addr : Word)
    (reads : ∀ {ram : Iram} {index : Nat}, 0 < ram.size → index < 2 ^ 32 →
      chip' ram index = some (chip ram index)) :
    Succeeds config (readVia addr chip' y) (DeviceBus.readVia addr chip y) := by
  intro d fits
  have full := fits.full
  rw [DeviceBus.readVia_eq]
  cases index : d.iramIndex addr with
  | none => exact ⟨proceeds ((iramIndex_eq full addr).trans (congrArg some index)) rfl, outside fits⟩
  | some index =>
    refine ⟨proceeds ((iramIndex_eq full addr).trans (congrArg some ‹_›)) ?_, fits⟩
    exact proceeds (reads full.positive (iramIndex_lt full ‹_›)) rfl

/-- A write succeeds, if the RAM can be written at every index and keeps its size. -/
lemma Outside.writeVia {chip : Iram → Nat → Iram} {chip' : Iram → Nat → Option Iram}
    {y : StateM (DeviceBus β) Unit} (outside : Outside config y) (addr : Word)
    (writes : ∀ {ram : Iram} {index : Nat}, 0 < ram.size → index < 2 ^ 32 →
      chip' ram index = some (chip ram index))
    (sized : ∀ ram index, (chip ram index).size = ram.size) :
    Succeeds config (writeVia addr chip' y) (DeviceBus.writeVia addr chip y) := by
  intro d fits
  have full := fits.full
  rw [DeviceBus.writeVia_eq]
  cases index : d.iramIndex addr with
  | none => exact ⟨proceeds ((iramIndex_eq full addr).trans (congrArg some index)) rfl, outside fits⟩
  | some index =>
    refine ⟨proceeds ((iramIndex_eq full addr).trans (congrArg some ‹_›)) ?_, ?_⟩
    · exact proceeds (writes full.positive (iramIndex_lt full ‹_›)) rfl
    · exact ⟨(sized _ _).trans full, fits.same⟩

end Checked

open Checked in
/-- A checked bus answers every request as the device bus does. -/
lemma CheckedBus.answersAlike {β : Type} [Bus β] (config : Config) :
    AnswersAlike (Stands config : CheckedBus β → DeviceBus β → Prop) where
  readByte addr := ((Outside.onHost _).readVia addr fun positive early =>
    ramByte_eq positive (by omega)).answers
  readHalf addr := ((Outside.onHost _).readVia addr fun positive early =>
    ramHalf_eq positive early).answers
  readWord addr := ((Outside.either (.onHost _) (.bind (.onHost _) fun _ =>
    .bind (.onHost _) fun _ => .pure _)).readVia addr fun positive early =>
      ramWord_eq positive early).answers
  writeByte addr value := ((Outside.onHost _).writeVia addr
    (fun positive early => setRamByte_whole positive early value)
    fun ram index => Iram.size_storeByte ram index value).answers
  writeHalf addr value := ((Outside.onHost _).writeVia addr
    (fun positive early => setRamHalf_eq positive early value)
    fun ram index => Iram.size_storeHalf ram index value).answers
  writeWord addr value := ((Outside.either (.onHost _) (.bind (.onHost _) fun _ =>
    .onHost _)).writeVia addr (fun positive early => setRamWord_eq positive early value)
    fun ram index => Iram.size_storeWord ram index value).answers
  ioReadWord addr := (Outside.either (.onHost _) (.bind (.onHost _) fun _ =>
    .bind (.onHost _) fun _ => .pure _)).elsewhere.answers
  ioWriteWord addr value := (Outside.either (.onHost _) (.bind (.onHost _) fun _ =>
    .onHost _)).elsewhere.answers
  fetch addr := ((Outside.onHost _).readVia addr fun positive early =>
    ramHalf_eq positive early).answers
  acknowledge line := (Outside.onHost _).elsewhere.answers

end E1Machine
