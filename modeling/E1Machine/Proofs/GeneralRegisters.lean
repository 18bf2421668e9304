import E1Machine.Proofs.Frames

/-!
# General registers

The local registers and the global registers from 2 to 17 are plain storage: a write has no effect beyond the
register, and a read finds what was written last. A field of an instruction word that names neither the program
counter nor the status register names one of them, and so does its partner in a register pair.
-/

namespace E1Machine

/-! ## Which registers -/

namespace Operand

/-- Whether a register is plain storage. -/
def IsGeneral (o : Operand) : Prop := o.bank = .globals → 2 ≤ o.code ∧ o.code < 18

/-- Whether a register is general can be decided by its code. -/
instance (o : Operand) : Decidable o.IsGeneral := inferInstanceAs (Decidable (_ → _))

/-- Every local register is general. -/
lemma isGeneral_local (code : Nat) : IsGeneral ⟨.locals, code⟩ := nofun

/-- Whether two registers are different ones. -/
def Apart (o p : Operand) : Prop := o.bank = p.bank → o.code % 64 ≠ p.code % 64

/-- Whether two registers are different can be decided by their codes. -/
instance (o p : Operand) : Decidable (o.Apart p) := inferInstanceAs (Decidable (_ → _))

/-- Whether a field of an instruction word names a general register. -/
structure IsGeneralField (o : Operand) : Prop where
  field : o.code < 16
  notPc : o.isPc = false
  notSr : o.isSr = false

/-- Whether a field names a general register can be decided by its code. -/
instance (o : Operand) : Decidable o.IsGeneralField :=
  decidable_of_iff (o.code < 16 ∧ o.isPc = false ∧ o.isSr = false)
    ⟨fun h => ⟨h.1, h.2.1, h.2.2⟩, fun h => ⟨h.field, h.notPc, h.notSr⟩⟩

namespace IsGeneralField

variable {o : Operand} (general : o.IsGeneralField)
include general

/-- What such a field names is a general register. -/
lemma isGeneral : o.IsGeneral := by
  obtain ⟨bank, code⟩ := o
  obtain ⟨field, notPc, notSr⟩ := general
  rintro ⟨⟩
  simp only [isPc, isSr, beq_self_eq_true, Bool.true_and, beq_eq_false_iff_ne] at field notPc notSr
  dsimp only
  omega

/-- The partner of a general register in a pair is a general register. -/
lemma next : o.next.IsGeneral := by
  have isGlobal := general.isGeneral
  have field := general.field
  obtain ⟨bank, code⟩ := o
  cases bank with
  | locals => exact nofun
  | globals =>
    obtain ⟨low, -⟩ := isGlobal rfl
    dsimp only at low field
    rintro -
    show 2 ≤ (code + 1) % 32 ∧ (code + 1) % 32 < 18
    omega

/-- The registers of a pair are two. -/
lemma apart_next : o.Apart o.next := by
  have field := general.field
  obtain ⟨bank, code⟩ := o
  dsimp only at field
  rintro -
  cases bank with
  | globals =>
    show code % 64 ≠ (code + 1) % 32 % 64
    omega
  | locals =>
    show code % 64 ≠ (code + 1) % 64 % 64
    omega

end IsGeneralField

/-- A general register is not the program counter. -/
lemma IsGeneral.isPc_eq {o : Operand} (general : o.IsGeneral) : o.isPc = false := by
  obtain ⟨bank, code⟩ := o
  cases bank with
  | locals => rfl
  | globals =>
    obtain ⟨low, -⟩ := general rfl
    exact beq_false_of_ne (Nat.ne_of_gt (Nat.lt_of_lt_of_le (by decide) low))

/-- A general register is not the status register. -/
lemma IsGeneral.isSr_eq {o : Operand} (general : o.IsGeneral) : o.isSr = false := by
  obtain ⟨bank, code⟩ := o
  cases bank with
  | locals => rfl
  | globals =>
    obtain ⟨low, -⟩ := general rfl
    exact beq_false_of_ne (Nat.ne_of_gt low)

end Operand

/-! ## Pairs of words -/

/-- The high word of an append is its first part. -/
lemma highWord_append (high low : Word) : highWord (high ++ low) = high :=
  BitVec.extractLsb'_append_eq_left

/-- The low word of an append is its second part. -/
lemma lowWord_append (high low : Word) : lowWord (high ++ low) = low :=
  BitVec.extractLsb'_append_eq_right

/-! ## Reads and writes -/

namespace Cpu

/-- A write of a general global register stores the value and does nothing else. -/
lemma setGlobal_general (c : Cpu) {code : Nat} (low : 2 ≤ code) (high : code < 18) (value : Word) :
    c.setGlobal code value = c.store code value := by
  unfold setGlobal
  rw [Nat.mod_eq_of_lt (by omega)]
  split <;> first | omega | rfl

section

variable {o p : Operand} (general : o.IsGeneral)
include general

/-- A write of a general register keeps the status register. -/
lemma write_general_status (c : Cpu) (value : Word) : (c.write o value).status = c.status := by
  refine c.write_status_of_ne (fun isGlobal => ?_) value
  obtain ⟨low, high⟩ := general isGlobal
  show o.code % 32 ≠ 1
  omega

/-- A write of a general register keeps the stack pointer. -/
lemma write_general_sp (c : Cpu) (value : Word) : (c.write o value).regs.sp = c.regs.sp := by
  refine c.write_others (fun isGlobal => ?_) ⟨by decide, by decide⟩
  obtain ⟨low, high⟩ := general isGlobal
  show o.code % 32 ≠ 18
  omega

/-- Flags are no part of any general register. -/
lemma read_modifyStatus (c : Cpu) {f : Status → Status} (keeps : (f c.status).fp = c.status.fp) :
    (c.modifyStatus f).read o = c.read o := by
  obtain ⟨bank, code⟩ := o
  cases bank with
  | locals =>
    show c.regs.localAt (localSlot code (f c.status).fp.toNat) = c.regs.inFrame code
    rw [keeps]
    rfl
  | globals =>
    obtain ⟨low, high⟩ := general rfl
    dsimp only at low high
    exact Registers.global_setStatus _ _ (by show code % 32 ≠ 1; omega)

/-- The register holds the value. -/
lemma read_write (c : Cpu) (value : Word) : (c.write o value).read o = value := by
  obtain ⟨bank, code⟩ := o
  cases bank with
  | locals => exact c.read_write_local rfl value
  | globals =>
    obtain ⟨low, high⟩ := general rfl
    show (c.setGlobal code value).regs.global code = value
    rw [c.setGlobal_general low high]
    exact (Registers.global_setGlobal _ _ _ _).trans (if_pos rfl)

/-- Every other general register holds what it held. -/
lemma read_write_apart (c : Cpu) (other : p.IsGeneral) (apart : o.Apart p) (value : Word) :
    (c.write o value).read p = c.read p := by
  have frame : (c.write o value).status.fp = c.status.fp :=
    congrArg Status.fp (c.write_general_status general value)
  have written := c.write_localAt o value
  obtain ⟨bank', code'⟩ := p
  cases bank' with
  | locals =>
    have slot : (c.write o value).regs.slot code' = c.regs.slot code' :=
      congrArg (fun fp : BitVec 7 => localSlot code' fp.toNat) frame
    show (c.write o value).regs.localAt ((c.write o value).regs.slot code') =
      c.regs.localAt (c.regs.slot code')
    rw [slot, written, if_neg]
    rintro ⟨isLocal, same⟩
    exact apart isLocal (localSlot_inj same)
  | globals =>
    obtain ⟨low', high'⟩ := other rfl
    dsimp only at low' high'
    show (c.write o value).regs.global code' = c.regs.global code'
    refine c.write_others (fun isGlobal => ?_) ⟨by omega, by show code' ≠ 1; omega⟩
    obtain ⟨low, high⟩ := general isGlobal
    have differ : o.code % 64 ≠ code' % 64 := apart isGlobal
    omega

end

/-- A write of a general pair keeps the status register. -/
lemma writePair_status (c : Cpu) {o : Operand} (general : o.IsGeneralField) (value : Double) :
    (c.writePair o value).status = c.status :=
  (write_general_status general.next _ _).trans (write_general_status general.isGeneral _ _)

/-- The registers of a pair hold the two words that were written to it. -/
lemma read_writePair (c : Cpu) {o : Operand} (general : o.IsGeneralField) (value : Double) :
    (c.writePair o value).read o = highWord value ∧ (c.writePair o value).read o.next = lowWord value :=
  ⟨(read_write_apart general.next _ general.isGeneral
      (fun same => (general.apart_next same.symm).symm) _).trans (read_write general.isGeneral _ _),
    read_write general.next _ _⟩

/-- Every other general register holds what it held. -/
lemma read_writePair_apart (c : Cpu) {o p : Operand} (general : o.IsGeneralField) (other : p.IsGeneral)
    (first : o.Apart p) (second : o.next.Apart p) (value : Double) :
    (c.writePair o value).read p = c.read p :=
  (read_write_apart general.next _ other second _).trans (read_write_apart general.isGeneral _ other first _)

/-- A pair reads back as it was written. -/
lemma readPair_writePair (c : Cpu) {o : Operand} (general : o.IsGeneralField) (value : Double) :
    (c.writePair o value).readPair o = value := by
  obtain ⟨first, second⟩ := c.read_writePair general value
  unfold readPair
  rw [first, second]
  exact BitVec.extractLsb'_append_extractLsb'

/-! ## What a computation leaves -/

/-- A word is stored and flags are set, and no other general register changes. -/
structure Stores (c : Cpu) (o : Operand) (value : Word) (status : Status) (after : Cpu) : Prop where
  status : after.status = status
  value : after.read o = value
  others (p : Operand) (other : p.IsGeneral) (apart : o.Apart p) : after.read p = c.read p

/-- A word is written first and its flags are set then, since no general register depends on them. -/
lemma write_stores (c : Cpu) {o : Operand} (general : o.IsGeneral) (value : Word) {f : Status → Status}
    (keeps : (f c.status).fp = c.status.fp) (n : Nat) :
    Stores c o value (f c.status) (((c.write o value).modifyStatus f).spend n) := by
  have status := c.write_general_status general value
  have first := c.read_write general value
  have others (p : Operand) (other : p.IsGeneral) (apart : o.Apart p) :=
    c.read_write_apart general other apart value
  generalize c.write o value = d at *
  have keeps : (f d.status).fp = d.status.fp := by rwa [status]
  refine ⟨congrArg f status, ?_, fun p other apart => ?_⟩
  · exact (read_modifyStatus general d keeps).trans first
  · exact (read_modifyStatus other d keeps).trans (others p other apart)

/-- A pair of words is stored and flags are set, and no other general register changes. -/
structure StoresPair (c : Cpu) (o : Operand) (high low : Word) (status : Status) (after : Cpu) : Prop where
  entries : after.entries = c.entries
  status : after.status = status
  high : after.read o = high
  low : after.read o.next = low
  others (p : Operand) (other : p.IsGeneral) (first : o.Apart p) (second : o.next.Apart p) :
    after.read p = c.read p

/-- A pair is written first and its flags are set then, since no general register depends on them. -/
lemma writePair_stores (c : Cpu) {o : Operand} (general : o.IsGeneralField) (high low : Word)
    {f : Status → Status} (keeps : (f c.status).fp = c.status.fp) (n : Nat) :
    StoresPair c o high low (f c.status) (((c.writePair o (high ++ low)).modifyStatus f).spend n) := by
  have status := c.writePair_status general (high ++ low)
  obtain ⟨first, second⟩ := c.read_writePair general (high ++ low)
  rw [highWord_append] at first
  rw [lowWord_append] at second
  have entries : (c.writePair o (high ++ low)).entries = c.entries :=
    (write_entries _ _ _).trans (write_entries _ _ _)
  have others (p : Operand) (other : p.IsGeneral) (apart : o.Apart p) (apart' : o.next.Apart p) :=
    c.read_writePair_apart general other apart apart' (high ++ low)
  generalize c.writePair o (high ++ low) = d at *
  have keeps : (f d.status).fp = d.status.fp := by rwa [status]
  refine ⟨entries, congrArg f status, ?_, ?_, fun p other apart apart' => ?_⟩
  · exact (read_modifyStatus general.isGeneral d keeps).trans first
  · exact (read_modifyStatus general.next d keeps).trans second
  · exact (read_modifyStatus other d keeps).trans (others p other apart apart')

/-! ## What a computation leaves alone -/

/-- A computation that takes a time changes registers of a list and the status register within a frame, and nothing
else. -/
structure Touches (c : Cpu) (dsts : List Operand) (time : Nat) (after : Cpu) : Prop where
  fp : after.status.fp = c.status.fp
  globals (code : Nat) (notSr : code % 32 ≠ Global.sr)
    (other : ∀ o ∈ dsts, o.bank = .globals → o.code % 32 ≠ code % 32) :
    after.regs.global code = c.regs.global code
  locals (slot : Fin 64) (other : ∀ o ∈ dsts, o.bank = .locals → c.regs.slot o.code ≠ slot) :
    after.regs.localAt slot = c.regs.localAt slot
  rest : after =
    { c with regs := after.regs, cycles := c.cycles + time, remaining := c.remaining - time }

/-- A write of a general register changes no other part of the processor, and no other global register. -/
lemma write_general_regs (c : Cpu) {o : Operand} (general : o.IsGeneral) (value : Word) :
    ∃ regs : Registers, c.write o value = { c with regs := regs } ∧
      ∀ code, (o.bank = .globals → o.code % 32 ≠ code % 32) → regs.global code = c.regs.global code := by
  obtain ⟨bank, code⟩ := o
  cases bank with
  | locals => exact ⟨_, rfl, fun _ _ => rfl⟩
  | globals =>
    obtain ⟨low, high⟩ := general rfl
    exact ⟨_, c.setGlobal_general low high value,
      fun _ other => (Registers.global_setGlobal _ _ _ _).trans (if_neg (other rfl))⟩

namespace Touches

/-- A computation that does nothing touches nothing. -/
lemma refl (c : Cpu) : Touches c [] 0 c where
  fp := rfl
  globals _ _ _ := rfl
  locals _ _ := rfl
  rest := by
    rw [Int.natCast_zero, Int.sub_zero]
    rfl

variable {c d : Cpu} {dsts : List Operand} {time : Nat} (touches : Touches c dsts time d)
include touches

/-- A write of a general register touches that register. -/
lemma write {o : Operand} (general : o.IsGeneral) (value : Word) : Touches c (o :: dsts) time (d.write o value) where
  fp := by rw [write_general_status general, touches.fp]
  globals code notSr other := by
    obtain ⟨regs, written, others⟩ := d.write_general_regs general value
    rw [written]
    exact (others code (other o (.head _))).trans
      (touches.globals code notSr fun p inside => other p (.tail _ inside))
  locals slot other := by
    rw [d.write_localAt, if_neg]
    · exact touches.locals slot fun p inside => other p (.tail _ inside)
    · rintro ⟨isLocal, same⟩
      refine other o (.head _) isLocal ?_
      unfold Registers.slot at same ⊢
      rwa [← show d.regs.status.fp = c.regs.status.fp from touches.fp]
  rest := by
    obtain ⟨regs, written, -⟩ := d.write_general_regs general value
    rw [written, touches.rest]

/-- A change of flags touches no register but the status register. -/
lemma modifyStatus {f : Status → Status} (keeps : ∀ s, (f s).fp = s.fp) :
    Touches c dsts time (d.modifyStatus f) where
  fp := (keeps _).trans touches.fp
  globals code notSr other := (Registers.global_setStatus _ _ notSr).trans (touches.globals code notSr other)
  locals := touches.locals
  rest := by
    rw [touches.rest]
    rfl

/-- Spending cycles adds to the time of a computation. -/
lemma spend (n : Nat) : Touches c dsts (time + n) (d.spend n) where
  fp := touches.fp
  globals := touches.globals
  locals := touches.locals
  rest := by
    rw [touches.rest]
    unfold Cpu.spend
    dsimp only
    rw [Nat.add_assoc, Int.sub_sub, Int.natCast_add]

end Touches

/-- A computation is charged by the clock that it finds. -/
lemma Touches.charge {c d : Cpu} {dsts : List Operand} (touches : Touches c dsts 0 d) (kind : CostClass) :
    Touches c dsts (c.cost kind) (d.charge kind) := by
  have same : d.cost kind = c.cost kind := by
    rw [touches.rest]
    rfl
  have spent := touches.spend (c.cost kind)
  rw [Nat.zero_add] at spent
  unfold Cpu.charge
  rwa [same]

/-- A result that is written with its flags touches its register. -/
lemma write_touches (c : Cpu) {o : Operand} (general : o.IsGeneral) (value : Word) {f : Status → Status}
    (keeps : ∀ s, (f s).fp = s.fp) (kind : CostClass) :
    Touches c [o] (c.cost kind) (((c.write o value).modifyStatus f).charge kind) :=
  .charge (.modifyStatus ((Touches.refl c).write general value) keeps) kind

/-- A result that is written to a pair with its flags touches the two registers. -/
lemma writePair_touches (c : Cpu) {o : Operand} (general : o.IsGeneralField) (value : Double) {f : Status → Status}
    (keeps : ∀ s, (f s).fp = s.fp) (kind : CostClass) :
    Touches c [o.next, o] (c.cost kind) (((c.writePair o value).modifyStatus f).charge kind) :=
  .charge (.modifyStatus (((Touches.refl c).write general.isGeneral _).write general.next _) keeps) kind

end Cpu

end E1Machine
