import Mathlib
import E1Machine.Proofs.Alignment
import E1Machine.Proofs.Division
import E1Machine.Proofs.Mirrors
import E1Machine.Proofs.OperandRanges

/-!
# Storing and loading back

A store takes a row of bytes from its data registers and writes it from the aligned address on; a load of the same
form finds the row there again. The bytes of a row lie at different locations even where memory is mirrored, and so
the row is found as it was written, whatever part of it is on-chip (`Full.storeRow`). A stack word that is not yet
spilled is moved between registers of the bank instead.

Main statement: `Machine.stored_loads`.
-/

namespace E1Machine

/-! ## Rows of bytes -/

/-- Addresses less than a mirror apart name different locations. -/
lemma sameLocation_offset {size : IramSize} {base : Word} {k l : Nat} (near : k < 4096) (near' : l < 4096)
    (same : SameLocation size (base + BitVec.ofNat 32 k) (base + BitVec.ofNat 32 l)) : k = l := by
  have below := base.isLt
  have sum (n : Nat) : (base + BitVec.ofNat 32 n).toNat = (base.toNat + n) % 2 ^ 32 := by
    rw [BitVec.toNat_add, BitVec.toNat_ofNat, Nat.add_mod_mod]
  obtain same | ⟨⟨low, high⟩, ⟨low', high'⟩, same⟩ := same
  · have equal := congrArg BitVec.toNat same
    rw [sum, sum] at equal
    omega
  · rw [sum] at low high low' high'
    rw [sum, sum] at same
    obtain bytes | bytes | bytes := size.bytes_cases <;> rw [bytes] at same <;> omega

/-- Some bytes with their addresses, the first at `base + start`. -/
def byteRow (base : Word) (start : Nat) : List Byte → List (Word × Byte)
  | [] => []
  | byte :: bytes => (base + BitVec.ofNat 32 start, byte) :: byteRow base (start + 1) bytes

namespace DeviceBus

/-- A row of bytes that is stored is found where it was stored, and no other location changes. -/
lemma Full.storeRow (base : Word) (bytes : List Byte) : ∀ {d : DeviceBus FlatMemory} (_ : d.Full) (start : Nat),
    start + bytes.length ≤ 4096 →
    (∀ k (inside : k < bytes.length),
      (d.storeAll (byteRow base start bytes)).byteAt (base + BitVec.ofNat 32 (start + k)) = bytes[k]) ∧
    ∀ addr, (∀ k < bytes.length, ¬SameLocation d.config.iramSize (base + BitVec.ofNat 32 (start + k)) addr) →
      (d.storeAll (byteRow base start bytes)).byteAt addr = d.byteAt addr := by
  induction bytes with
  | nil => exact fun _ _ _ => ⟨fun _ inside => absurd inside (Nat.not_lt_zero _), fun _ _ => rfl⟩
  | cons byte bytes ih =>
    intro d full start short
    rw [List.length_cons] at short
    -- The first byte is stored before the rest, none of which lies at its place.
    obtain ⟨held, kept⟩ := ih (full.storeByte (base + BitVec.ofNat 32 start) byte) (start + 1) (by omega)
    rw [storeByte_config] at kept
    show (∀ k inside, ((d.storeByte _ byte).storeAll (byteRow base (start + 1) bytes)).byteAt _ = _) ∧
      ∀ addr, _ → ((d.storeByte _ byte).storeAll (byteRow base (start + 1) bytes)).byteAt addr = _
    constructor
    · intro k inside
      cases k with
      | zero =>
        rw [kept, byteAt_storeByte full]
        · exact if_pos (.inl rfl)
        · intro k small same
          have equal := sameLocation_offset (by omega) (by omega) same
          omega
      | succ k =>
        have next : start + (k + 1) = start + 1 + k := by omega
        rw [next]
        exact held k (Nat.lt_of_succ_lt_succ inside)
    · intro addr outside
      rw [kept, byteAt_storeByte full]
      · exact if_neg (outside 0 (Nat.zero_lt_succ _))
      · intro k small
        have next : start + 1 + k = start + (k + 1) := by omega
        rw [next]
        exact outside (k + 1) (Nat.succ_lt_succ small)

end DeviceBus

/-! ## Words as rows -/

/-- The bytes of a word, the highest first. -/
def wordBytes (value : Word) : List Byte :=
  [value.extractLsb' 24 8, value.extractLsb' 16 8, value.extractLsb' 8 8, value.extractLsb' 0 8]

/-- The bytes of a halfword, the higher first. -/
def halfBytes (value : Half) : List Byte := [value.extractLsb' 8 8, value.extractLsb' 0 8]

/-- A row of bytes is cut in two, the second part at its place. -/
lemma byteRow_append (base : Word) (bytes bytes' : List Byte) : ∀ start,
    byteRow base start (bytes ++ bytes') =
      byteRow base start bytes ++ byteRow base (start + bytes.length) bytes' := by
  induction bytes with
  | nil => exact fun _ => rfl
  | cons byte bytes ih =>
    intro start
    have next : start + (bytes.length + 1) = start + 1 + bytes.length := by omega
    rw [List.length_cons, next]
    exact congrArg _ (ih (start + 1))

namespace Write

variable {addr base : Word} {start : Nat} (there : addr = base + BitVec.ofNat 32 start)
include there

/-- A word is stored as the row of its four bytes. -/
lemma bytes_word (value : Word) : (word addr value).bytes = byteRow base start (wordBytes value) := by
  have next (k : Nat) : addr + BitVec.ofNat 32 k = base + BitVec.ofNat 32 (start + k) := by
    rw [there, BitVec.add_assoc, ← BitVec.ofNat_add]
  show [(addr, _), (addr + BitVec.ofNat 32 1, _), (addr + BitVec.ofNat 32 2, _), (addr + BitVec.ofNat 32 3, _)] = _
  rw [next, next, next, there]
  rfl

/-- A halfword is stored as the row of its two bytes. -/
lemma bytes_half (value : Half) : (half addr value).bytes = byteRow base start (halfBytes value) := by
  have next : addr + BitVec.ofNat 32 1 = base + BitVec.ofNat 32 (start + 1) := by
    rw [there, BitVec.add_assoc, ← BitVec.ofNat_add]
  show [(addr, _), (addr + BitVec.ofNat 32 1, _)] = _
  rw [next, there]
  rfl

end Write

namespace DeviceBus

variable {d : DeviceBus FlatMemory} (full : d.Full) {addr : Word}
include full

/-- A word is read from its four bytes. -/
lemma Full.readWord_bytes (aligned : addr.toNat % 4 = 0) {value : Word}
    (held : ∀ k (inside : k < 4), d.byteAt (addr + BitVec.ofNat 32 k) = (wordBytes value)[k]) :
    (Bus.readWord addr).run d = (value, d) := by
  have first : d.byteAt addr = value.extractLsb' 24 8 := by
    rw [← BitVec.add_zero addr]
    exact held 0 (by decide)
  have second : d.byteAt (addr + 1) = value.extractLsb' 16 8 := held 1 (by decide)
  have third : d.byteAt (addr + 2) = value.extractLsb' 8 8 := held 2 (by decide)
  have fourth : d.byteAt (addr + 3) = value.extractLsb' 0 8 := held 3 (by decide)
  rw [readWord_run full aligned, first, second, third, fourth]
  refine Prod.ext ?_ rfl
  show value.extractLsb' 24 8 ++ value.extractLsb' 16 8 ++ value.extractLsb' 8 8 ++ value.extractLsb' 0 8 = value
  ext i
  grind

/-- A halfword is read from its two bytes. -/
lemma Full.readHalf_bytes (aligned : addr.toNat % 2 = 0) {value : Half}
    (held : ∀ k (inside : k < 2), d.byteAt (addr + BitVec.ofNat 32 k) = (halfBytes value)[k]) :
    (Bus.readHalf addr).run d = (value, d) := by
  have first : d.byteAt addr = value.extractLsb' 8 8 := by
    rw [← BitVec.add_zero addr]
    exact held 0 (by decide)
  have second : d.byteAt (addr + 1) = value.extractLsb' 0 8 := held 1 (by decide)
  rw [(readHalf_run full aligned).1, first, second]
  exact Prod.ext BitVec.extractLsb'_append_extractLsb' rfl

/-- A word that is written is stored as a part of a row of bytes. -/
lemma Full.writeWord_bytes (aligned : addr.toNat % 4 = 0) {base : Word} {start : Nat}
    (there : addr = base + BitVec.ofNat 32 start) (value : Word) :
    ((Bus.writeWord addr value).run d).2 = d.storeAll (byteRow base start (wordBytes value)) := by
  rw [← Write.bytes_word there]
  exact full.request_run (show (Write.word addr value).Aligned from aligned)

end DeviceBus

/-! ## Accesses -/

namespace DataForm

/-- Whether a form moves data to or from memory, and not I/O. -/
def isMemory : DataForm → Bool
  | ioWord | ioDouble => false
  | byte _ | half _ | word | double | stack => true

/-- How many bits of a register a form moves. -/
def bits : DataForm → Nat
  | byte _ => 8
  | half _ => 16
  | word | double | ioWord | ioDouble | stack => 32

/-- The number of bytes of an access. -/
def size : DataForm → Nat
  | byte _ => 1
  | half _ => 2
  | word | ioWord | stack => 4
  | double | ioDouble => 8

/-- The address of the first byte of an access. -/
def base (addr : Word) : DataForm → Word
  | byte _ => addr
  | half _ => alignHalf addr
  | word | double | ioWord | ioDouble | stack => alignWord addr

/-- The bytes that an access moves, the highest first. -/
def image (high low : Word) : DataForm → List Byte
  | byte _ => [high.setWidth 8]
  | half _ => halfBytes (lowHalf high)
  | word | ioWord | stack => wordBytes high
  | double | ioDouble => wordBytes high ++ wordBytes low

/-- What a register holds of a word that was moved in a form. -/
def moved (value : Word) : DataForm → Word
  | byte signed => extend signed (value.setWidth 8)
  | half signed => extend signed (lowHalf value)
  | word | double | ioWord | ioDouble | stack => value

/-- The image of an access has as many bytes as its size says. -/
lemma length_image (form : DataForm) (high low : Word) : (form.image high low).length = form.size := by
  cases form <;> rfl

/-- An access moves eight bytes at most. -/
lemma size_le (form : DataForm) : form.size ≤ 8 := by
  unfold size
  split <;> decide

end DataForm

/-- A general register and its partner are stored as they are read. -/
lemma Cpu.stored_general (c : Cpu) {data : Operand} (general : data.IsGeneralField) :
    c.stored data = (c.read data, c.read data.next) := by
  unfold stored
  rw [general.notSr]
  rfl

/-- The second word of a double access follows the first. -/
lemma alignWord_add_four (addr : Word) : alignWord (addr + 4) = alignWord addr + 4 := by
  apply BitVec.eq_of_toNat_eq
  have below := addr.isLt
  rw [toNat_alignWord, BitVec.toNat_add, BitVec.toNat_add, toNat_alignWord]
  show (addr.toNat + 4) % 2 ^ 32 / 4 * 4 = (addr.toNat / 4 * 4 + 4) % 2 ^ 32
  omega

namespace Machine

variable {m : Machine (DeviceBus FlatMemory)} {form : DataForm} {addr : Word} {data : Operand}

/-- Whether an access goes to memory when the stack pointer is `sp`: stack words from there on are in the bank. -/
def InMemory (form : DataForm) (addr sp : Word) : Prop :=
  form.isMemory = true ∧ (form = .stack → addr.ult sp = true)

/-- A store to memory writes its row of bytes. -/
lemma storeData_row (full : m.bus.Full) (inMemory : InMemory form addr m.cpu.regs.sp)
    (general : data.IsGeneralField) :
    ((storeData form addr data).run m).2.bus =
      m.bus.storeAll (byteRow (form.base addr) 0 (form.image (m.cpu.read data) (m.cpu.read data.next))) := by
  have words := m.cpu.stored_general general
  have start (base : Word) : base = base + BitVec.ofNat 32 0 := (BitVec.add_zero base).symm
  have word (value : Word) := full.writeWord_bytes (alignWord_mod addr) (start (alignWord addr)) value
  obtain ⟨memory, stack⟩ := inMemory
  cases form with
  | byte signed =>
    have run : ((storeData (.byte signed) addr data).run m).2.bus =
        ((Bus.writeByte addr ((m.cpu.stored data).1.setWidth 8)).run m.bus).2 := rfl
    have bytes : (Write.byte addr ((m.cpu.read data).setWidth 8)).bytes =
        byteRow addr 0 [(m.cpu.read data).setWidth 8] := congrArg (fun a => [(a, _)]) (start addr)
    have aligned : (Write.byte addr ((m.cpu.read data).setWidth 8)).Aligned := trivial
    rw [run, words]
    exact (full.request_run aligned).trans (congrArg _ bytes)
  | half signed =>
    have run : ((storeData (.half signed) addr data).run m).2.bus =
        ((Bus.writeHalf (alignHalf addr) (lowHalf (m.cpu.stored data).1)).run m.bus).2 := rfl
    have aligned : (Write.half (alignHalf addr) (lowHalf (m.cpu.read data))).Aligned := alignHalf_mod addr
    rw [run, words]
    exact (full.request_run aligned).trans (congrArg _ (Write.bytes_half (start _) _))
  | word =>
    have run : ((storeData .word addr data).run m).2.bus =
        ((Bus.writeWord (alignWord addr) (m.cpu.stored data).1).run m.bus).2 := rfl
    rw [run, words]
    exact word _
  | double =>
    have run : ((storeData .double addr data).run m).2.bus =
        ((Bus.writeWord (alignWord (addr + 4)) (m.cpu.stored data).2).run
          ((Bus.writeWord (alignWord addr) (m.cpu.stored data).1).run m.bus).2).2 := rfl
    rw [run, words, word]
    -- The second word starts where the row of the first one ends.
    obtain ⟨full', -⟩ := full.storeAll (byteRow (alignWord addr) 0 (wordBytes (m.cpu.read data)))
    rw [full'.writeWord_bytes (alignWord_mod _) (alignWord_add_four addr)]
    show _ = m.bus.storeAll (byteRow (alignWord addr) 0 (wordBytes _ ++ wordBytes _))
    rw [byteRow_append]
    exact (List.foldl_append ..).symm
  | stack =>
    rw [storeData_stack_run, if_pos (stack rfl), words]
    exact word _
  | ioWord | ioDouble => cases memory

/-- A load from memory finds a row of bytes and changes nothing there. -/
lemma loadData_row {d : DeviceBus FlatMemory} (full : d.Full) {high low : Word}
    (held : ∀ k (inside : k < (form.image high low).length),
      d.byteAt (form.base addr + BitVec.ofNat 32 k) = (form.image high low)[k])
    {c : Cpu} (inMemory : InMemory form addr c.regs.sp) :
    (loadData form addr data).run ⟨c, d⟩ = ((), ⟨if form = .double then c.writePair data (high ++ low)
      else c.write data (form.moved high), d⟩) := by
  obtain ⟨memory, stack⟩ := inMemory
  cases form with
  | byte signed =>
    have read : (Bus.readByte addr).run d = (high.setWidth 8, d) := by
      have first : d.byteAt addr = high.setWidth 8 := by
        rw [← BitVec.add_zero addr]
        exact held 0 (by decide : 0 < 1)
      rw [DeviceBus.readByte_run full, first]
    have run : (loadData (.byte signed) addr data).run ⟨c, d⟩ =
        ((), ⟨c.write data (extend signed ((Bus.readByte addr).run d).1), ((Bus.readByte addr).run d).2⟩) := rfl
    rw [run, read]
    rfl
  | half signed =>
    have read := full.readHalf_bytes (alignHalf_mod addr) held
    have run : (loadData (.half signed) addr data).run ⟨c, d⟩ =
        ((), ⟨c.write data (extend signed ((Bus.readHalf (alignHalf addr)).run d).1),
          ((Bus.readHalf (alignHalf addr)).run d).2⟩) := rfl
    rw [run, read]
    rfl
  | word =>
    have read := full.readWord_bytes (alignWord_mod addr) held
    have run : (loadData .word addr data).run ⟨c, d⟩ =
        ((), ⟨c.write data ((Bus.readWord (alignWord addr)).run d).1,
          ((Bus.readWord (alignWord addr)).run d).2⟩) := rfl
    rw [run, read]
    rfl
  | double =>
    have first : (Bus.readWord (alignWord addr)).run d = (high, d) :=
      full.readWord_bytes (alignWord_mod addr) fun k inside =>
        (held k (show k < 8 by omega)).trans (List.getElem_append_left _)
    have second : (Bus.readWord (alignWord (addr + 4))).run d = (low, d) := by
      refine full.readWord_bytes (alignWord_mod (addr + 4)) fun k inside => ?_
      -- The bytes of the second word are those of the row from the fourth on.
      have next : alignWord (addr + 4) + BitVec.ofNat 32 k = alignWord addr + BitVec.ofNat 32 (4 + k) := by
        rw [alignWord_add_four, BitVec.add_assoc, BitVec.ofNat_add]
        rfl
      rw [next]
      refine (held (4 + k) (show 4 + k < 8 by omega)).trans ?_
      interval_cases k <;> rfl
    have run : (loadData .double addr data).run ⟨c, d⟩ =
        (let first := (Bus.readWord (alignWord addr)).run d
        let second := (Bus.readWord (alignWord (addr + 4))).run first.2
        ((), ⟨c.writePair data (first.1 ++ second.1), second.2⟩)) := rfl
    rw [run, first]
    dsimp only
    rw [second]
    rfl
  | stack =>
    rw [loadData_stack_run, if_pos (stack rfl), full.readWord_bytes (alignWord_mod addr) held]
    rfl
  | ioWord | ioDouble => cases memory

end Machine

/-! ## Values -/

/-- The low half of a word is its low sixteen bits. -/
lemma lowHalf_eq (value : Word) : lowHalf value = value.setWidth 16 := by
  unfold lowHalf
  ext i
  grind

section

variable {n : Nat} (fits : n ≤ 32) (value : Word)
include fits

/-- Bits that are extended by their sign stand for the number modulo a power of two, around zero. -/
lemma toInt_signExtend_setWidth : ((value.setWidth n).signExtend 32).toInt = value.toInt.bmod (2 ^ n) := by
  have multiple : 2 ^ n ∣ 2 ^ 32 := Nat.pow_dvd_pow 2 fits
  rw [BitVec.toInt_signExtend_of_le fits, BitVec.toInt_setWidth, BitVec.toInt_eq_toNat_bmod value,
    Int.bmod_bmod_of_dvd multiple]

/-- Bits that are extended by zeros stand for the number modulo a power of two. -/
lemma toNat_setWidth_setWidth : ((value.setWidth n).setWidth 32).toNat = value.toNat % 2 ^ n := by
  rw [BitVec.toNat_setWidth_of_le fits, BitVec.toNat_setWidth]

end

namespace DataForm

variable {form : DataForm} (value : Word)

/-- A signed form moves a number modulo the power of its width, balanced around zero. -/
lemma moved_signed (signed : form.isSigned = true) :
    (form.moved value).toInt = value.toInt.bmod (2 ^ form.bits) := by
  cases form with
  | byte =>
    cases signed
    exact toInt_signExtend_setWidth (by decide) value
  | half =>
    cases signed
    show ((lowHalf value).signExtend 32).toInt = _
    rw [lowHalf_eq]
    exact toInt_signExtend_setWidth (by decide) value
  | word | double | ioWord | ioDouble | stack => cases signed

/-- Any other form moves it modulo this power as it is. -/
lemma moved_unsigned (unsigned : form.isSigned = false) :
    (form.moved value).toNat = value.toNat % 2 ^ form.bits := by
  cases form with
  | byte =>
    cases unsigned
    have fits : 8 ≤ 32 := by decide
    exact toNat_setWidth_setWidth fits value
  | half =>
    cases unsigned
    show ((lowHalf value).setWidth 32).toNat = _
    rw [lowHalf_eq]
    exact toNat_setWidth_setWidth (by decide) value
  | word | double | ioWord | ioDouble | stack => exact (Nat.mod_eq_of_lt value.isLt).symm

/-- A signed form loses exactly the values that it does not move as they are. -/
lemma loses_iff (signed : form.isSigned = true) : form.loses value = true ↔ form.moved value ≠ value := by
  have differs (n : Nat) : (!fitsSigned n value) = true ↔ (value.setWidth n).signExtend 32 ≠ value := by
    unfold fitsSigned
    rw [Bool.not_eq_true', beq_eq_false_iff_ne]
  cases form with
  | byte =>
    cases signed
    exact differs 8
  | half =>
    cases signed
    show (!fitsSigned 16 value) = true ↔ (lowHalf value).signExtend 32 ≠ value
    rw [lowHalf_eq]
    exact differs 16
  | word | double | ioWord | ioDouble | stack => cases signed

/-- These are the numbers that its width cannot represent. -/
lemma loses_iff_range : form.loses value = true ↔
    form.isSigned = true ∧ ¬(-2 ^ (form.bits - 1) ≤ value.toInt ∧ value.toInt < 2 ^ (form.bits - 1)) := by
  have outside {n : Nat} (fits : n + 1 ≤ 32) : fitsSigned (n + 1) value = false ↔
      ¬(-2 ^ n ≤ value.toInt ∧ value.toInt < 2 ^ n) :=
    (Bool.not_eq_true _ ▸ not_congr (fitsSigned_iff fits value))
  cases form with
  | byte signed =>
    show (signed && !fitsSigned 8 value) = true ↔ _
    rw [Bool.and_eq_true, Bool.not_eq_true', outside (n := 7) (by decide)]
    rfl
  | half signed =>
    show (signed && !fitsSigned 16 value) = true ↔ _
    rw [Bool.and_eq_true, Bool.not_eq_true', outside (n := 15) (by decide)]
    rfl
  | word | double | ioWord | ioDouble | stack => exact iff_of_false Bool.false_ne_true fun both => nomatch both.1

end DataForm

namespace Machine

/-- A register, or a pair, holds what a form moves of two words. -/
structure LoadsBack (form : DataForm) (high low : Word) (data : Operand) (c : Cpu) : Prop where
  signed : form.isSigned = true → (c.read data).toInt = high.toInt.bmod (2 ^ form.bits)
  unsigned : form.isSigned = false → (c.read data).toNat = high.toNat % 2 ^ form.bits
  second : form = .double → c.read data.next = low

/-- An entry that was made because of a range error leads from a processor to another. -/
def RaisesRange (c d : Cpu) : Prop := ∃ e : Entry, d.entries = c.entries.push e ∧ e.cause = .exception .range

/-- A register that was loaded holds what the form moves. -/
lemma loadsBack_of_write {form : DataForm} {high low : Word} {data : Operand} (general : data.IsGeneralField)
    (c : Cpu) : LoadsBack form high low data
      (if form = .double then c.writePair data (high ++ low) else c.write data (form.moved high)) := by
  obtain ⟨first, second⟩ := c.read_writePair general (high ++ low)
  rw [highWord_append] at first
  rw [lowWord_append] at second
  by_cases double : form = .double
  · rw [if_pos double]
    subst double
    refine ⟨nofun, fun _ => ?_, fun _ => second⟩
    rw [first]
    exact @DataForm.moved_unsigned .double high rfl
  · rw [if_neg double]
    refine ⟨fun signed => ?_, fun unsigned => ?_, fun is => absurd is double⟩
    · rw [Cpu.read_write general.isGeneral, DataForm.moved_signed high signed]
    · rw [Cpu.read_write general.isGeneral, DataForm.moved_unsigned high unsigned]

/-- A store raises a range error exactly if its form loses part of the value, and moves no stack pointer. -/
lemma storeData_range (m : Machine (DeviceBus FlatMemory)) (form : DataForm) (addr : Word) {data : Operand}
    (general : data.IsGeneralField) :
    let after := ((storeData form addr data).run m).2
    (form.loses (m.cpu.read data) = true → RaisesRange m.cpu after.cpu) ∧
      (form.loses (m.cpu.read data) = false → after.cpu.entries = m.cpu.entries) ∧
      after.cpu.regs.sp = m.cpu.regs.sp := by
  intro after
  have words : (m.cpu.stored data).1 = m.cpu.read data := congrArg Prod.fst (m.cpu.stored_general general)
  obtain ⟨d, left, run⟩ := m.storeData_cpu form addr data
  -- Apart from the error a store changes memory or a register of the bank, and enters nothing.
  obtain ⟨entries, sp⟩ : d.entries = m.cpu.entries ∧ d.regs.sp = m.cpu.regs.sp := by
    obtain rfl | ⟨-, rfl⟩ := left <;> exact ⟨rfl, rfl⟩
  rw [words] at run
  obtain ⟨e, enters, -⟩ := d.raise_frame .range
  cases loses : form.loses (m.cpu.read data) with
  | false =>
    rw [loses] at run
    refine ⟨nofun, fun _ => ?_, ?_⟩
    · show ((storeData form addr data).run m).2.cpu.entries = _
      rw [run]
      exact entries
    · show ((storeData form addr data).run m).2.cpu.regs.sp = _
      rw [run]
      exact sp
  | true =>
    rw [loses] at run
    refine ⟨fun _ => ⟨e, ?_, d.raise_cause .range enters.entries⟩, nofun, ?_⟩
    · show ((storeData form addr data).run m).2.cpu.entries = _
      rw [run, ← entries]
      exact enters.entries
    · show ((storeData form addr data).run m).2.cpu.regs.sp = _
      rw [run, ← sp]
      exact enters.globals _ (by decide) (by decide)

/-- What enters no handler raises no range error. -/
lemma not_raisesRange {c d : Cpu} (same : d.entries = c.entries) : ¬RaisesRange c d := by
  rintro ⟨e, pushed, -⟩
  have sizes := congrArg Array.size (same.symm.trans pushed)
  rw [Array.size_push] at sizes
  omega

/-- A store to memory writes its access, and a load finds there what the form moves. -/
lemma stored_in_memory {m : Machine (DeviceBus FlatMemory)} (full : m.bus.Full) {form : DataForm} {addr : Word}
    (inMemory : InMemory form addr m.cpu.regs.sp) {data : Operand} (general : data.IsGeneralField) :
    let after := ((storeData form addr data).run m).2
    (∀ c : Cpu, c.regs.sp = m.cpu.regs.sp → ∀ data' : Operand,
      (loadData form addr data').run ⟨c, after.bus⟩ = ((), ⟨if form = .double
        then c.writePair data' (m.cpu.read data ++ m.cpu.read data.next)
        else c.write data' (form.moved (m.cpu.read data)), after.bus⟩)) ∧
    ∀ b, (∀ k < form.size, ¬SameLocation m.bus.config.iramSize (form.base addr + BitVec.ofNat 32 k) b) →
      after.bus.byteAt b = m.bus.byteAt b := by
  intro after
  have row : after.bus = m.bus.storeAll (byteRow (form.base addr) 0
      (form.image (m.cpu.read data) (m.cpu.read data.next))) := storeData_row full inMemory general
  have length := form.length_image (m.cpu.read data) (m.cpu.read data.next)
  have short := form.size_le
  obtain ⟨held, kept⟩ := full.storeRow (form.base addr)
    (form.image (m.cpu.read data) (m.cpu.read data.next)) 0 (by omega)
  obtain ⟨full', -⟩ := full.storeAll (byteRow (form.base addr) 0
    (form.image (m.cpu.read data) (m.cpu.read data.next)))
  rw [← row] at held kept full'
  simp only [Nat.zero_add] at held kept
  rw [length] at kept
  refine ⟨fun c sp data' => loadData_row full' held ?_, kept⟩
  rw [sp]
  exact inMemory

/-- A stack word from the stack pointer on is stored in the bank. A load finds it there, and memory has no part in
it. -/
lemma stored_in_bank {m : Machine (DeviceBus FlatMemory)} {addr : Word} (above : addr.ult m.cpu.regs.sp = false)
    {data : Operand} (general : data.IsGeneralField) :
    let after := ((storeData .stack addr data).run m).2
    after.bus = m.bus ∧ ∀ c : Cpu, c.regs.sp = m.cpu.regs.sp →
      c.regs.localAt (stackCell addr) = after.cpu.regs.localAt (stackCell addr) → ∀ data' : Operand,
      (loadData .stack addr data').run ⟨c, after.bus⟩ = ((), ⟨c.write data' (m.cpu.read data), after.bus⟩) := by
  have words : (m.cpu.stored data).1 = m.cpu.read data := congrArg Prod.fst (m.cpu.stored_general general)
  dsimp only
  rw [storeData_stack_run, above, if_neg Bool.false_ne_true, words]
  refine ⟨rfl, fun c sp slot data' => ?_⟩
  have held : c.regs.localAt (stackCell addr) = m.cpu.read data :=
    slot.trans ((Registers.localAt_setLocalAt _ _ _ _).trans (if_pos rfl))
  rw [loadData_stack_run, sp, above, if_neg Bool.false_ne_true, held]

/-- What a store writes the load of the same form reads, for any processor with the same stack pointer, and for a
stack word in the bank with the same register there: a signed form the number modulo the power of its width and
balanced around zero, any other form the low bits, and a double form the second word too. The load changes no
memory, and the store none outside the bytes of the aligned access. It raises a range error exactly if the form is
signed and cannot represent the number, and that is when the load does not return it. -/
theorem stored_loads {m : Machine (DeviceBus FlatMemory)} (full : m.bus.Full) {form : DataForm}
    (memory : form.isMemory = true) (addr : Word) {data data' : Operand} (general : data.IsGeneralField)
    (general' : data'.IsGeneralField) :
    let v := m.cpu.read data
    let after := ((storeData form addr data).run m).2
    let outOfRange := form.isSigned = true ∧
      ¬(-2 ^ (form.bits - 1) ≤ v.toInt ∧ v.toInt < 2 ^ (form.bits - 1))
    (∀ c : Cpu, c.regs.sp = m.cpu.regs.sp →
      (form = .stack → c.regs.localAt (stackCell addr) = after.cpu.regs.localAt (stackCell addr)) →
      let loaded := ((loadData form addr data').run ⟨c, after.bus⟩).2
      LoadsBack form v (m.cpu.read data.next) data' loaded.cpu ∧ loaded.bus = after.bus ∧
        (form.isSigned = true → (loaded.cpu.read data' ≠ v ↔ outOfRange))) ∧
    (∀ b, (∀ k < form.size, ¬SameLocation m.bus.config.iramSize (form.base addr + BitVec.ofNat 32 k) b) →
      after.bus.byteAt b = m.bus.byteAt b) ∧
    after.cpu.regs.sp = m.cpu.regs.sp ∧
    (outOfRange ↔ RaisesRange m.cpu after.cpu) ∧
    (¬outOfRange → after.cpu.entries = m.cpu.entries) := by
  intro v after outOfRange
  have lost : form.loses v = true ↔ outOfRange := DataForm.loses_iff_range v
  obtain ⟨raises, quiet, sp⟩ := m.storeData_range form addr general
  -- In memory the row of bytes is found again, and in the bank the register that stands for the word.
  obtain ⟨loads, kept⟩ : (∀ c : Cpu, c.regs.sp = m.cpu.regs.sp →
      (form = .stack → c.regs.localAt (stackCell addr) = after.cpu.regs.localAt (stackCell addr)) →
      (loadData form addr data').run ⟨c, after.bus⟩ = ((), ⟨if form = .double
        then c.writePair data' (v ++ m.cpu.read data.next) else c.write data' (form.moved v), after.bus⟩)) ∧
      ∀ b, (∀ k < form.size, ¬SameLocation m.bus.config.iramSize (form.base addr + BitVec.ofNat 32 k) b) →
        after.bus.byteAt b = m.bus.byteAt b := by
    by_cases inMemory : InMemory form addr m.cpu.regs.sp
    · obtain ⟨loads, kept⟩ := stored_in_memory full inMemory general
      exact ⟨fun c same _ => loads c same data', kept⟩
    -- All forms but a stack word are in memory, and that is so below the stack pointer.
    · obtain ⟨rfl, above⟩ : form = .stack ∧ addr.ult m.cpu.regs.sp = false := by
        unfold InMemory at inMemory
        simpa [memory] using inMemory
      obtain ⟨bus, loads⟩ := stored_in_bank above general
      exact ⟨fun c same slot => loads c same (slot rfl) data', fun b _ => congrArg (·.byteAt b) bus⟩
  refine ⟨fun c same slot => ?_, kept, sp, ?_, ?_⟩
  · intro loaded
    have run : loaded = ⟨if form = .double then c.writePair data' (v ++ m.cpu.read data.next)
        else c.write data' (form.moved v), after.bus⟩ := congrArg Prod.snd (loads c same slot)
    rw [run]
    refine ⟨loadsBack_of_write general' c, rfl, fun signed => ?_⟩
    have single : form ≠ .double := by
      rintro rfl
      cases signed
    dsimp only
    rw [if_neg single, Cpu.read_write general'.isGeneral, ← lost, DataForm.loses_iff v signed]
  · refine ⟨fun out => raises (lost.mpr out), fun raised => ?_⟩
    by_contra inside
    exact not_raisesRange (quiet (Bool.eq_false_iff.mpr (mt lost.mp inside))) raised
  · exact fun inside => quiet (Bool.eq_false_iff.mpr (mt lost.mp inside))

/-- A machine whose local register 2 holds 0x180. -/
def wideByte : Machine (DeviceBus FlatMemory) :=
  ⟨(Cpu.powerOn Variant.e132t.config).write ⟨.locals, 2⟩ 0x180, ⟨Variant.e132t.config, Iram.zeros .kib4, {}⟩⟩

/-- Stored in the on-chip RAM as a signed byte, the value loads back as -128, and a range error is raised. -/
theorem wideByte_stored_loads :
    let after := ((storeData (.byte true) 0xc0001003 ⟨.locals, 2⟩).run wideByte).2
    let loaded := ((loadData (.byte true) 0xc0001003 ⟨.locals, 4⟩).run ⟨after.cpu, after.bus⟩).2
    wideByte.bus.Full ∧ (loaded.cpu.read ⟨.locals, 4⟩).toInt = -128 ∧ loaded.bus = after.bus ∧
      loaded.cpu.read ⟨.locals, 4⟩ ≠ 0x180 ∧ RaisesRange wideByte.cpu after.cpu := by
  have full : wideByte.bus.Full := by
    show (Iram.zeros .kib4).size = IramSize.bytes .kib4
    exact Iram.size_zeros .kib4
  have value : wideByte.cpu.read ⟨.locals, 2⟩ = 0x180 := by decide +kernel
  have field (code : Nat) (inside : code < 16) : Operand.IsGeneralField ⟨.locals, code⟩ := ⟨inside, rfl, rfl⟩
  have notStack : DataForm.byte true ≠ .stack := by decide
  have wide : DataForm.isSigned (.byte true) = true ∧
      ¬(-2 ^ 7 ≤ (0x180 : Word).toInt ∧ (0x180 : Word).toInt < 2 ^ 7) := by decide
  obtain ⟨loads, -, sp, raises, -⟩ := @stored_loads wideByte full (.byte true) rfl 0xc0001003 _ _
    (field 2 (by decide)) (field 4 (by decide))
  generalize ((storeData (.byte true) 0xc0001003 ⟨.locals, 2⟩).run wideByte).2 = after at *
  rw [value] at loads raises
  obtain ⟨loaded, bus, differs⟩ := loads after.cpu sp fun stack => absurd stack notStack
  exact ⟨full, loaded.signed rfl, bus, (differs rfl).mpr wide, raises.mp wide⟩

end Machine

end E1Machine
