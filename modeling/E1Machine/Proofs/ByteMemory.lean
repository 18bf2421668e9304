import E1Machine.Bus.Device
import E1Machine.Bus.Flat
import Mathlib.Logic.Function.Basic
import Mathlib.Tactic.Common

/-!
# Byte memories

A host whose bus is a memory of bytes, and what the words of a device are on such a host: those of the
on-chip RAM inside its window, and four bytes of the host outside, on a bus of either width.
-/

namespace E1Machine

/-! ## Bytes, halfwords and words -/

namespace Bytes

/-- The two bytes from an address, the first one higher. -/
def half (bytes : Word → Byte) (addr : Word) : Half := bytes addr ++ bytes (addr + 1)

/-- The four bytes from an address, the first one highest. -/
def word (bytes : Word → Byte) (addr : Word) : Word := half bytes addr ++ half bytes (addr + 2)

/-- The bytes after a halfword is stored. -/
def storeHalf (bytes : Word → Byte) (addr : Word) (value : Half) : Word → Byte :=
  Function.update (Function.update bytes addr (value.extractLsb' 8 8)) (addr + 1)
    (value.extractLsb' 0 8)

/-- The bytes after a word is stored. -/
def storeWord (bytes : Word → Byte) (addr value : Word) : Word → Byte :=
  storeHalf (storeHalf bytes addr (highHalf value)) (addr + 2) (lowHalf value)

/-- A byte of half a word is a byte of the word. -/
lemma extractLsb'_half (value : Word) (start : Nat) {low : Nat} (fits : low + 8 ≤ 16) :
    (value.extractLsb' start 16).extractLsb' low 8 = value.extractLsb' (start + low) 8 := by
  ext i below
  have inside : low + i < 16 := by omega
  rw [BitVec.getElem_extractLsb', BitVec.getLsbD_extractLsb', BitVec.getElem_extractLsb',
    decide_eq_true inside, Bool.true_and, Nat.add_assoc]

/-- A halfword that is stored is read back. -/
lemma half_storeHalf (bytes : Word → Byte) (addr : Word) (value : Half) :
    half (storeHalf bytes addr value) addr = value := by
  have ne : addr ≠ addr + 1 := by bv_omega
  unfold half storeHalf
  rw [Function.update_self, Function.update_of_ne ne, Function.update_self]
  exact BitVec.extractLsb'_append_extractLsb'

/-- Storing a halfword leaves a halfword alone that has no byte in common with it. -/
lemma half_storeHalf_of_ne (bytes : Word → Byte) {addr other : Word} (value : Half)
    (first : other ≠ addr) (before : other + 1 ≠ addr) (after : other ≠ addr + 1) :
    half (storeHalf bytes addr value) other = half bytes other := by
  have second : other + 1 ≠ addr + 1 := by bv_omega
  unfold half storeHalf
  rw [Function.update_of_ne after, Function.update_of_ne first, Function.update_of_ne second,
    Function.update_of_ne before]

/-- A word reads back, and no other word changes. -/
lemma word_storeWord (bytes : Word → Byte) {addr other : Word} (value : Word)
    (aligned : addr.toNat % 4 = 0) (alignedOther : other.toNat % 4 = 0) :
    word (storeWord bytes addr value) other = if other = addr then value else word bytes other := by
  unfold word storeWord
  by_cases same : other = addr
  · subst same
    rw [if_pos rfl, half_storeHalf,
      half_storeHalf_of_ne _ _ (by bv_omega) (by bv_omega) (by bv_omega), half_storeHalf]
    exact BitVec.extractLsb'_append_extractLsb'
  · have apart : other.toNat ≠ addr.toNat := fun eq => same (BitVec.eq_of_toNat_eq eq)
    rw [if_neg same, half_storeHalf_of_ne, half_storeHalf_of_ne, half_storeHalf_of_ne,
      half_storeHalf_of_ne]
    all_goals bv_omega

end Bytes

/-- A bus that is a memory of bytes: halfwords and words are made of consecutive bytes, the first one
highest, reading changes none of them, and writing changes those that it names. -/
class ByteMemory (β : Type) [Bus β] where
  /-- The byte at an address. -/
  byteAt : β → Word → Byte
  readByte (m : β) (addr : Word) : ((Bus.readByte addr).run m).1 = byteAt m addr ∧
    byteAt ((Bus.readByte addr).run m).2 = byteAt m
  readHalf (m : β) (addr : Word) : ((Bus.readHalf addr).run m).1 = Bytes.half (byteAt m) addr ∧
    byteAt ((Bus.readHalf addr).run m).2 = byteAt m
  readWord (m : β) (addr : Word) : ((Bus.readWord addr).run m).1 = Bytes.word (byteAt m) addr ∧
    byteAt ((Bus.readWord addr).run m).2 = byteAt m
  writeByte (m : β) (addr : Word) (value : Byte) :
    byteAt ((Bus.writeByte addr value).run m).2 = Function.update (byteAt m) addr value
  writeHalf (m : β) (addr : Word) (value : Half) :
    byteAt ((Bus.writeHalf addr value).run m).2 = Bytes.storeHalf (byteAt m) addr value
  writeWord (m : β) (addr value : Word) :
    byteAt ((Bus.writeWord addr value).run m).2 = Bytes.storeWord (byteAt m) addr value

/-- Storing a byte of a flat memory updates the function from addresses to bytes. -/
lemma FlatMemory.byteAt_storeByte_eq (m : FlatMemory) (addr : Word) (value : Byte) :
    (m.storeByte addr value).byteAt = Function.update m.byteAt addr value := by
  funext other
  rw [byteAt_storeByte, Function.update_apply]
  simp only [eq_comm]

/-- Storing a halfword of a flat memory stores its two bytes. -/
lemma FlatMemory.byteAt_storeHalf (m : FlatMemory) (addr : Word) (value : Half) :
    (m.storeHalf addr value).byteAt = Bytes.storeHalf m.byteAt addr value := by
  unfold FlatMemory.storeHalf Bytes.storeHalf
  rw [FlatMemory.byteAt_storeByte_eq, FlatMemory.byteAt_storeByte_eq]

/-- Storing the halves of a word in a row stores the word. -/
lemma FlatMemory.storeHalf_storeHalf (m : FlatMemory) (addr value : Word) :
    (m.storeHalf addr (highHalf value)).storeHalf (addr + 2) (lowHalf value) =
      m.storeWord addr value := by
  have next : addr + 2 + 1 = addr + 3 := by bv_omega
  unfold storeWord storeHalf highHalf lowHalf
  rw [next, Bytes.extractLsb'_half value 16 (by decide), Bytes.extractLsb'_half value 16 (by decide),
    Bytes.extractLsb'_half value 0 (by decide), Bytes.extractLsb'_half value 0 (by decide)]

/-- The flat memory is a memory of bytes. -/
instance : ByteMemory FlatMemory where
  byteAt := FlatMemory.byteAt
  readByte m addr := ⟨rfl, rfl⟩
  readHalf m addr := ⟨rfl, rfl⟩
  readWord m addr := by
    refine ⟨?_, rfl⟩
    have next : addr + 2 + 1 = addr + 3 := by bv_omega
    show m.wordAt addr = _
    unfold FlatMemory.wordAt Bytes.word Bytes.half
    rw [next]
    exact BitVec.append_assoc
  writeByte m addr value := m.byteAt_storeByte_eq addr value
  writeHalf m addr value := m.byteAt_storeHalf addr value
  writeWord m addr value := by
    show (m.storeWord addr value).byteAt = _
    rw [← m.storeHalf_storeHalf, FlatMemory.byteAt_storeHalf, FlatMemory.byteAt_storeHalf]
    rfl

/-! ## The words of a device -/

/-- Addresses below the window are outside. -/
lemma iramOffset_of_lt (size : IramSize) {addr : Word} (below : addr.toNat < 0xc0000000) :
    iramOffset size addr = none := by
  unfold iramOffset
  rw [if_neg]
  intro window
  have top : addr.toNat / 2 ^ 29 % 2 ^ 3 = 6 := by
    rw [← Nat.shiftRight_eq_div_pow, ← BitVec.extractLsb'_toNat]
    exact congrArg BitVec.toNat window
  omega

namespace DeviceBus

/-- An address outside the window names no byte of the on-chip RAM. -/
lemma iramIndex_of_outside {β : Type} (d : DeviceBus β) {addr : Word}
    (outside : iramOffset d.config.iramSize addr = none) : d.iramIndex addr = none := by
  unfold iramIndex
  rw [outside]
  split <;> rfl

variable {β : Type} [Bus β] [ByteMemory β]

/-- The word at an address: of the on-chip RAM in its window, of the host outside. -/
def wordAt (d : DeviceBus β) (addr : Word) : Word :=
  match d.iramIndex addr with
  | some index => Iram.wordAt d.iram index
  | none => Bytes.word (ByteMemory.byteAt d.host) addr

/-- Two states of a device bus with the same contents of all memory. -/
structure SameMemory (d d' : DeviceBus β) : Prop where
  config_eq : d'.config = d.config
  iram_eq : d'.iram = d.iram
  bytes_eq : ByteMemory.byteAt d'.host = ByteMemory.byteAt d.host

/-- The words of memory are the same where its contents are. -/
lemma SameMemory.wordAt_eq {d d' : DeviceBus β} (same : SameMemory d d') (addr : Word) :
    d'.wordAt addr = d.wordAt addr := by
  unfold wordAt iramIndex
  rw [same.config_eq, same.iram_eq, same.bytes_eq]

/-- A word is read as it is in memory, over a bus of either width, and reading changes nothing. -/
lemma readWord_wordAt (d : DeviceBus β) (addr : Word) :
    ((Bus.readWord addr).run d).1 = d.wordAt addr ∧
      SameMemory d ((Bus.readWord addr).run d).2 := by
  have via : (Bus.readWord addr).run d =
      (match d.iramIndex addr with
        | some index => pure (Iram.wordAt d.iram index)
        | none => readHostWord addr : StateM (DeviceBus β) Word).run d := rfl
  rw [via]
  unfold wordAt
  cases d.iramIndex addr with
  | some index => exact ⟨rfl, rfl, rfl, rfl⟩
  | none =>
    obtain ⟨⟨variant, programBus, ioBus, size, mask⟩, iram, host⟩ := d
    cases programBus with
    | bits32 =>
      obtain ⟨value, bytes⟩ := ByteMemory.readWord host addr
      exact ⟨value, rfl, rfl, bytes⟩
    | bits16 =>
      obtain ⟨high, bytes⟩ := ByteMemory.readHalf host addr
      obtain ⟨low, bytes'⟩ := ByteMemory.readHalf ((Bus.readHalf addr).run host).2 (addr + 2)
      rw [bytes] at low bytes'
      exact ⟨congrArg₂ (· ++ ·) high low, rfl, rfl, bytes'⟩

/-- A word outside the window is written to the host, over a bus of either width. -/
lemma writeWord_outside (d : DeviceBus β) {addr : Word} (value : Word)
    (outside : d.iramIndex addr = none) :
    ((Bus.writeWord addr value).run d).2.config = d.config ∧
      ((Bus.writeWord addr value).run d).2.iram = d.iram ∧
      ByteMemory.byteAt ((Bus.writeWord addr value).run d).2.host =
        Bytes.storeWord (ByteMemory.byteAt d.host) addr value := by
  have via : (Bus.writeWord addr value).run d =
      (match d.iramIndex addr with
        | some index => modifyIram (Iram.storeWord · index value)
        | none => writeHostWord addr value : StateM (DeviceBus β) Unit).run d := rfl
  rw [via, outside]
  obtain ⟨⟨variant, programBus, ioBus, size, mask⟩, iram, host⟩ := d
  cases programBus with
  | bits32 => exact ⟨rfl, rfl, ByteMemory.writeWord host addr value⟩
  | bits16 =>
    refine ⟨rfl, rfl, ?_⟩
    have high := ByteMemory.writeHalf host addr (highHalf value)
    have low := ByteMemory.writeHalf ((Bus.writeHalf addr (highHalf value)).run host).2 (addr + 2)
      (lowHalf value)
    rw [high] at low
    exact low

/-- A word written outside the window reads back, and no other word changes. -/
lemma wordAt_writeWord (d : DeviceBus β) {addr other : Word} (value : Word)
    (outside : d.iramIndex addr = none) (aligned : addr.toNat % 4 = 0)
    (alignedOther : other.toNat % 4 = 0) :
    ((Bus.writeWord addr value).run d).2.wordAt other =
      if other = addr then value else d.wordAt other := by
  obtain ⟨config, iram, bytes⟩ := d.writeWord_outside value outside
  unfold wordAt iramIndex at *
  rw [config, iram, bytes]
  by_cases same : other = addr
  · subst same
    rw [outside]
    exact Bytes.word_storeWord _ value aligned aligned
  · rw [if_neg same]
    split
    · rfl
    · rw [Bytes.word_storeWord _ value aligned alignedOther, if_neg same]

end DeviceBus

end E1Machine
