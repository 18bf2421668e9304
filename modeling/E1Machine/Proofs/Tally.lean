import E1Machine.Proofs.Frames
import E1Machine.Proofs.Outcome
import E1Machine.Proofs.Scales

/-!
# What an instruction spends and writes

A tally of the effect of an instruction: how many clocks it takes at most, at the slowest scale that the
device has, and which registers it has written. Tallies add up along the pieces of work of an
instruction, so that `Machine.execute_tally` gives one for every instruction. No instruction takes more
clocks than a division, and only a division that raises a range error takes those of an entry too.

Clocks are counted as overdraft, by which a slice ends later than with its last cycle. An instruction may
spend much of a slice without one, as reading the tick count does, which never uses a slice up.
-/

namespace E1Machine

/-- Whether every write of the register holds interrupts back. -/
def Operand.Blocks (o : Operand) : Prop :=
  o.bank = .globals ∧ (o.code % 32 = Global.sr ∨ o.code % 32 = Global.fcr)

/-- The registers that an instruction writes: its targets, unless it is a division that raises an
exception in place of its results. -/
def Instruction.written (c : Cpu) : Instruction → List Operand
  | divide dst src signed =>
    if c.read src == 0 || (signed && (c.readPair dst).msb) then [] else [dst, dst.next]
  | i => i.targets

namespace Cpu

/-- What is spent beyond all cycles of the slice but the last. -/
def overdraft (c : Cpu) : Nat := (1 - c.remaining).toNat

/-- How many cycles a clock lasts at the slowest scale that a mask leaves. -/
def slowestClock (mask : Word) : Nat := 1 <<< mask.toNat

/-- One processor leads to another in at most so many clocks. -/
structure Costs (mask : Word) (clocks : Nat) (c d : Cpu) : Prop where
  scaled : c.Scaled mask → d.Scaled mask
  drawn : c.Scaled mask → d.overdraft ≤ c.overdraft + clocks * slowestClock mask

/-- Costs of two steps in a row add up. -/
lemma Costs.trans {mask : Word} {n n' : Nat} {c d e : Cpu} (first : Costs mask n c d)
    (second : Costs mask n' d e) : Costs mask (n + n') c e where
  scaled scaled := second.scaled (first.scaled scaled)
  drawn scaled := by
    have one := first.drawn scaled
    have two := second.drawn (first.scaled scaled)
    rw [Nat.add_mul]
    omega

/-- Nothing done costs nothing. -/
lemma Costs.refl {mask : Word} {c : Cpu} : Costs mask 0 c c := ⟨id, fun _ => Nat.le_add_right _ _⟩

/-- What costs at most so many clocks costs at most more. -/
lemma Costs.weaken {mask : Word} {n n' : Nat} {c d : Cpu} (costs : Costs mask n c d) (more : n ≤ n') :
    Costs mask n' c d where
  scaled := costs.scaled
  drawn scaled :=
    Nat.le_trans (costs.drawn scaled) (Nat.add_le_add_left (Nat.mul_le_mul_right _ more) _)

/-- What leaves timer and slice alone takes no time. -/
lemma Costs.quiet {mask : Word} {n : Nat} {c d e : Cpu} (costs : Costs mask n c d)
    (timer : e.timer = d.timer) (remaining : e.remaining = d.remaining) : Costs mask n c e where
  scaled scaled := by
    unfold Scaled
    rw [timer]
    exact costs.scaled scaled
  drawn scaled := by
    unfold overdraft
    rw [remaining]
    exact costs.drawn scaled

/-- One processor leads to another in at most so many clocks, and with at least these registers written.
Nothing makes the lockout shorter. -/
structure Tally (mask : Word) (clocks : Nat) (written : List Operand) (c d : Cpu) : Prop
    extends Costs mask clocks c d where
  longer : c.lockout ≤ d.lockout
  held : ∀ o ∈ written, o.Blocks → 0 < d.lockout

/-- Writes of the status and the control register hold interrupts back, and so do those of the compare
register that change it. -/
lemma setGlobal_held (c : Cpu) {code : Nat} {value : Word} (holds : code % 32 = Global.sr ∨
    code % 32 = Global.fcr ∨ code % 32 = Global.tcr ∧ c.regs.global Global.tcr ≠ value) :
    0 < (c.setGlobal code value).lockout := by
  have blocked (d : Cpu) : 0 < (d.block 1).lockout :=
    Int.lt_of_lt_of_le Int.one_pos (Int.le_max_right _ _)
  unfold setGlobal
  rcases holds with named | named | ⟨named, new⟩
  · rw [named]
    exact blocked _
  · rw [named]
    exact blocked _
  · rw [named]
    show 0 < (c.writeCompare value).lockout
    unfold writeCompare
    rw [if_neg new]
    exact blocked _

namespace Tally

variable {mask : Word} {n : Nat} {os : List Operand} {c d : Cpu}

/-- Nothing done is tallied with no clocks and no registers. -/
lemma refl : Tally mask 0 [] c c := ⟨.refl, Int.le_refl _, nofun⟩

variable (t : Tally mask n os c d)
include t

/-- A tally allows more clocks and fewer registers. -/
lemma weaken {n' : Nat} {os' : List Operand} (more : n ≤ n') (fewer : os' ⊆ os) :
    Tally mask n' os' c d where
  toCosts := t.toCosts.weaken more
  longer := t.longer
  held o written := t.held o (fewer written)

/-- What changes neither timer nor slice, and does not shorten the lockout, takes no clocks. -/
lemma quiet {e : Cpu} (timer : e.timer = d.timer) (remaining : e.remaining = d.remaining)
    (longer : d.lockout ≤ e.lockout) : Tally mask n os c e where
  toCosts := t.toCosts.quiet timer remaining
  longer := Int.le_trans t.longer longer
  held o written blocks := Int.lt_of_lt_of_le (t.held o written blocks) longer

/-- A change of the status flags takes no clocks. -/
lemma flags (f : Status → Status) : Tally mask n os c (d.modifyStatus f) :=
  t.quiet rfl rfl (Int.le_refl _)

/-- Noting the length of an instruction takes no clocks. -/
lemma noteLength (halfwords : Nat) : Tally mask n os c (d.noteLength halfwords) := t.flags _

/-- A jump takes no clocks of its own. -/
lemma jump (target : Word) : Tally mask n os c (d.jump target) := t.quiet rfl rfl (Int.le_refl _)

/-- A report takes no clocks. -/
lemma report (r : Diagnostic) : Tally mask n os c (d.report r) := t.quiet rfl rfl (Int.le_refl _)

/-- A delayed branch takes no clocks when its target is left pending. -/
lemma delayTo (target : Word) : Tally mask n os c (d.delayTo target) :=
  t.quiet rfl rfl (Int.le_refl _)

/-- Filling a frame takes no clocks. -/
lemma fillFrame (code : Nat) (values : List Word) :
    Tally mask n os c (d.fillFrame code values) := by
  obtain ⟨locals, eq⟩ := fillFrame_changes values d code
  rw [eq]
  exact t.quiet rfl rfl (Int.le_refl _)

/-- A longer lockout takes no clocks. -/
lemma raiseLockout (k : Int) : Tally mask n os c (d.block k) :=
  t.quiet rfl rfl (Int.le_max_left _ _)

/-- Resuming what was interrupted takes no clocks of its own. -/
lemma resume (address saved : Word) : Tally mask n os c (d.resume address saved) :=
  t.quiet rfl rfl (Int.le_max_left _ _)

/-- A write takes no clocks, and its register is among the written ones. -/
lemma write (o : Operand) (value : Word) : Tally mask n (o :: os) c (d.write o value) := by
  obtain ⟨bank, code⟩ := o
  cases bank with
  | locals =>
    refine ⟨⟨t.scaled, t.drawn⟩, t.longer, fun o written blocks => ?_⟩
    obtain rfl | earlier := List.mem_cons.mp written
    · cases blocks.1
    · exact t.held o earlier blocks
  | globals =>
    obtain ⟨regs, timer, entry, lockout, reports, ⟨longer, -⟩, eq⟩ := d.setGlobal_changes code value
    have longer : d.lockout ≤ (d.setGlobal code value).lockout := by
      rw [eq]
      exact longer
    have remaining : (d.setGlobal code value).remaining = d.remaining := by rw [eq]
    refine ⟨⟨fun scaled => (t.scaled scaled).setGlobal code value, fun scaled => ?_⟩,
      Int.le_trans t.longer longer, fun o written blocks => ?_⟩
    · show (1 - (d.setGlobal code value).remaining).toNat ≤ _
      rw [remaining]
      exact t.drawn scaled
    · obtain rfl | earlier := List.mem_cons.mp written
      · exact d.setGlobal_held (blocks.2.imp_right .inl)
      · exact Int.lt_of_lt_of_le (t.held o earlier blocks) longer

/-- A write of a pair takes no clocks, and both registers are among the written ones. -/
lemma writePair (o : Operand) (value : Double) :
    Tally mask n [o, o.next] c (d.writePair o value) :=
  ((t.write o _).write o.next _).weaken (Nat.le_refl _) (by simp)

/-- The accumulator registers have no effect of their own, so storing them is writing them. -/
lemma setAccumulator (value : Double) :
    Tally mask n [⟨.globals, Global.accHigh⟩, ⟨.globals, Global.accLow⟩] c
      (d.setAccumulator value) :=
  ((t.write ⟨.globals, Global.accHigh⟩ _).write ⟨.globals, Global.accLow⟩ _).weaken (Nat.le_refl _)
    (by simp)

/-- An assignment takes no clocks, and its destination is among the written registers. -/
lemma assign (dst : Operand) (value : Word) (f : Status → Status) :
    Tally mask n (dst :: os) c (d.assign dst value f) := by
  unfold Cpu.assign
  dsimp only
  split
  · exact ((t.write dst value).flags f).flags _
  · exact (t.write dst value).flags f

/-- Time is spent at a scale that the device has. -/
lemma charge (kind : CostClass) : Tally mask (n + kind.clocks) os c (d.charge kind) where
  scaled := t.scaled
  drawn scaled := by
    have drawn := t.drawn scaled
    have cost : d.cost kind ≤ kind.clocks * slowestClock mask := by
      unfold slowestClock
      rw [cost_eq, Nat.shiftLeft_eq, Nat.one_shiftLeft]
      exact Nat.mul_le_mul_left _ (Nat.pow_le_pow_right (by decide) (t.scaled scaled).2)
    rw [Nat.add_mul]
    simp only [overdraft, Cpu.charge, spend] at drawn ⊢
    omega
  longer := t.longer
  held := t.held

/-- Reading the tick count never uses the slice up. -/
lemma readMoved (src : Operand) : Tally mask n os c (d.readMoved src).2 := by
  have ticks : Tally mask n os c d.readTicks.2 := by
    unfold readTicks
    dsimp only
    split
    · refine ⟨⟨t.scaled, fun _ => ?_⟩, t.longer, t.held⟩
      simp only [overdraft, spend]
      omega
    · exact t
  unfold Cpu.readMoved readGlobal
  split
  · split
    · exact t
    · split
      · exact ticks
      · exact t
  · exact t

/-! ## Entries -/

/-- Stacking the words of an entry takes no clocks. -/
lemma stackEntry (cause : EntryCause) (length : BitVec 4) (stacked : List Word) :
    Tally mask n os c (d.stackEntry cause length stacked) := by
  obtain ⟨regs, e, -, eq⟩ := d.stackEntry_changes cause length stacked
  rw [eq]
  exact t.quiet rfl rfl (Int.le_refl _)

/-- The entry of a handler takes two clocks. -/
lemma enterFrame (cause : EntryCause) (vector : Word) (length : BitVec 4) :
    Tally mask (n + 2) os c (d.enterFrame cause vector length) := by
  have stacked := (t.noteLength d.length).stackEntry cause length
    [(d.noteLength d.length).returnPc, (d.noteLength d.length).status.bits]
  exact ((stacked.flags _).jump vector).charge .entrySequence

/-- An exception takes the two clocks of its entry. -/
lemma raise (exception : Exception) : Tally mask (n + 2) os c (d.raise exception) :=
  t.enterFrame _ _ _

/-- An exception on a condition takes at most the two clocks of its entry. -/
lemma raiseIf (condition : Bool) (exception : Exception) :
    Tally mask (n + 2) os c (d.raiseIf condition exception) := by
  cases condition with
  | false => exact t.weaken (Nat.le_add_right n 2) (List.Subset.refl _)
  | true => exact t.raise exception

/-- The entry of an emulation takes six clocks. -/
lemma enterEmulation (byte : Byte) (dst src : Nat) :
    Tally mask (n + 6) os c (d.enterEmulation byte dst src) := by
  have stacked := (t.noteLength 1).stackEntry (.emulation byte) 6
    [(d.noteLength 1).stackAddress dst, (d.noteLength 1).regs.inFrame src,
      (d.noteLength 1).regs.inFrame (src + 1), (d.noteLength 1).returnPc,
      (d.noteLength 1).status.bits]
  exact ((stacked.flags _).jump (d.entry.emulation byte)).charge .softwareEntry

/-- The end of an addition takes the two clocks of its exception and the one of its result. -/
lemma finishAdder (dst : Operand) (r : AdderResult) (signed : Bool) :
    Tally mask (n + 3) (dst :: os) c (d.finishAdder dst r signed) := by
  unfold Cpu.finishAdder
  split
  · exact ((t.assign dst _ _).charge .alu).raiseIf _ _
  · exact ((t.assign dst _ _).charge .alu).weaken (Nat.add_le_add_left (by decide) n)
      (List.Subset.refl _)

end Tally

/-- The tally of a whole instruction: no more clocks than those of a division, or those of a division and
the entry that it makes. In the latter case neither an interrupt nor a trace can follow. -/
def Tallied (mask : Word) (written : List Operand) (c d : Cpu) : Prop :=
  Tally mask 36 written c d ∨
    Tally mask 38 written c d ∧ d.status.l = true ∧ d.status.t = false

/-- A tally of few clocks is one of an instruction. -/
lemma Tally.whole {mask : Word} {n : Nat} {os : List Operand} {c d : Cpu} (t : Tally mask n os c d)
    (few : n ≤ 36) : Tallied mask os c d :=
  .inl (t.weaken few (List.Subset.refl os))

/-- No instruction makes the lockout shorter. -/
lemma Tallied.longer {mask : Word} {os : List Operand} {c d : Cpu} (t : Tallied mask os c d) :
    c.lockout ≤ d.lockout := by
  obtain t | ⟨t, -⟩ := t
  · exact t.longer
  · exact t.longer

/-- A written register that blocks interrupts leaves them locked out. -/
lemma Tallied.held {mask : Word} {os : List Operand} {c d : Cpu} (t : Tallied mask os c d)
    {o : Operand} (written : o ∈ os) (blocks : o.Blocks) : 0 < d.lockout := by
  obtain t | ⟨t, -⟩ := t
  · exact t.held o written blocks
  · exact t.held o written blocks

/-! ## Effects on the processor -/

variable {mask : Word}

/-- No class of cost takes more than 36 clocks. -/
lemma clocks_few (kind : CostClass) : 0 + kind.clocks ≤ 36 := by
  rw [Nat.zero_add]
  exact kind.clocks_le

/-- Spending cycles leaves the status register alone. -/
lemma spend_status (c : Cpu) (n : Nat) : (c.spend n).status = c.status := rfl

/-- Charging for an instruction leaves the status register alone. -/
lemma charge_status (c : Cpu) (kind : CostClass) : (c.charge kind).status = c.status :=
  c.spend_status _

/-- A handler starts with interrupts locked and without a trace. -/
lemma raise_status (c : Cpu) (exception : Exception) :
    (c.raise exception).status.l = true ∧ (c.raise exception).status.t = false := by
  obtain ⟨e, -, -, status, -⟩ := c.enterFrame_frame (.exception exception)
    (c.entry.vector exception.trapNumber) 2
  unfold raise
  rw [status]
  exact ⟨rfl, rfl⟩

/-- A division writes its pair unless it raises an exception. -/
lemma divide_tally (c : Cpu) (dst src : Operand) (signed : Bool) :
    Tallied mask ((Instruction.divide dst src signed).written c) c (c.divide dst src signed) := by
  have t : Tally mask 0 [] c c := .refl
  unfold divide Instruction.written
  dsimp only
  split
  · refine .inr ⟨?_, ?_⟩
    · exact (((t.flags _).raise .range).charge .divide).weaken (by decide) (List.Subset.refl _)
    · rw [charge_status]
      exact raise_status _ _
  · exact (((t.writePair dst _).flags _).charge .divide).whole (by decide)

/-- A multiplication writes what its kind has as targets. -/
lemma multiply_tally (c : Cpu) (kind : ProductKind) (dst src : Operand) :
    Tallied mask (Instruction.multiply kind dst src).targets c (c.multiply kind dst src) := by
  have t : Tally mask 0 [] c c := .refl
  unfold multiply
  cases kind with
  | unsignedDouble | signedDouble => exact (((t.writePair dst _).flags _).charge _).whole (clocks_few _)
  | single => exact (((t.write dst _).flags _).charge _).whole (clocks_few _)

/-- A call takes one clock and writes no register that it names. -/
lemma call_tally (c : Cpu) (code : Nat) (src : Operand) (addend : Word) :
    Tally mask 1 [] c (c.call code src addend) := by
  have noted : Tally mask 0 [] c (c.noteLength c.length) := Tally.noteLength .refl _
  have stacked := noted.fillFrame code
    [(c.noteLength c.length).returnPc, (c.noteLength c.length).status.bits]
  exact (((stacked.flags _).jump _).raiseLockout 2).charge .controlTransfer

/-- A trap takes three clocks at most, those of its entry included. -/
lemma trap_tally (c : Cpu) (number : Nat) (condition : Option Condition) :
    Tally mask 3 [] c (c.trap number condition) := by
  have t : Tally mask 0 [] c c := .refl
  unfold trap
  split
  · exact (t.enterFrame _ _ _).charge .controlTransfer
  · exact (t.charge .controlTransfer).weaken (by decide) (List.Subset.refl _)

end Cpu

namespace Machine

variable {β : Type} [Bus β] {mask : Word}

/-! ## Effects on the machine -/

section

variable {n : Nat} {os : List Operand} {c : Cpu}

omit [Bus β] in
/-- What keeps a tally keeps it when repeated, by induction on the number of times. -/
lemma times_tally {x : Exec β Unit}
    (once : ∀ m : Machine β, Cpu.Tally mask n os c m.cpu → Cpu.Tally mask n os c (x.run m).2.cpu)
    (k : Nat) : ∀ m : Machine β, Cpu.Tally mask n os c m.cpu →
      Cpu.Tally mask n os c ((times k x).run m).2.cpu := by
  induction k with
  | zero => exact fun _ t => t
  | succ k ih => exact fun m t => ih _ (once m t)

/-- The transfers of a load write its targets and take no clocks of their own. -/
lemma loadData_tally {m : Machine β} (t : Cpu.Tally mask n os c m.cpu) (form : DataForm) (addr : Word)
    (data : Operand) :
    Cpu.Tally mask n (form.targets data ++ os) c ((loadData form addr data).run m).2.cpu := by
  cases form with
  | byte | half | word | ioWord => exact t.write data _
  | double | ioDouble =>
    exact ((t.write data _).write data.next _).weaken (Nat.le_refl _) (by simp [DataForm.targets])
  | stack =>
    rw [loadData_stack_run]
    split
    · exact t.write data _
    · exact t.write data _

end

/-- A transfer of any form takes at most three clocks. -/
lemma transfer_clocks (form : DataForm) : form.cost.clocks ≤ 3 := by
  cases form with
  | stack => exact Nat.le_refl 3
  | _ => exact Nat.le_of_ble_eq_true rfl

/-- A load takes at most three clocks. -/
lemma load_tally (m : Machine β) (form : DataForm) (addressing : Addressing) (data : Operand) :
    Cpu.Tally mask 3 (Instruction.load form addressing data).targets m.cpu
      ((load form addressing data).run m).2.cpu := by
  have t : Cpu.Tally mask 0 [] m.cpu m.cpu := .refl
  have advanced : Cpu.Tally mask 0 addressing.targets m.cpu
      (m.cpu.advanceAddress (m.cpu.transferAddress addressing) addressing) := by
    cases addressing with
    | offset base offset => exact t
    | advancing address step => exact t.write address _
  have loaded := loadData_tally
    (m := ⟨m.cpu.advanceAddress (m.cpu.transferAddress addressing) addressing, m.bus⟩)
    advanced form (m.cpu.transferAddress addressing) data
  refine (loaded.charge form.cost).weaken ?_ ?_
  · rw [Nat.zero_add]
    exact transfer_clocks form
  · exact List.append_subset.mpr ⟨List.subset_append_right _ _, List.subset_append_left _ _⟩

/-- A store takes at most five clocks, those of its exception included. -/
lemma store_tally (m : Machine β) (form : DataForm) (addressing : Addressing) (data : Operand) :
    Cpu.Tally mask 5 (Instruction.store form addressing data).targets m.cpu
      ((store form addressing data).run m).2.cpu := by
  obtain ⟨d, left, run⟩ := m.store_cpu form addressing data
  have charged : Cpu.Tally mask 3 [] m.cpu (m.cpu.charge form.cost) := by
    refine (Cpu.Tally.charge .refl form.cost).weaken ?_ (List.Subset.refl _)
    rw [Nat.zero_add]
    exact transfer_clocks form
  have stored : Cpu.Tally mask 3 [] m.cpu d := by
    obtain rfl | ⟨-, slot, value, rfl⟩ := left
    · exact charged
    · exact charged.quiet rfl rfl (Int.le_refl _)
  have raised := stored.raiseIf (form.loses (m.cpu.stored data).1) .range
  rw [run]
  cases addressing with
  | offset base offset => exact raised
  | advancing address step => exact raised.write address _

/-- A frame takes at most three clocks, those of its exception included. -/
lemma frame_tally (m : Machine β) (back length : BitVec 4) :
    Cpu.Tally mask 3 [] m.cpu ((frame back length).run m).2.cpu := by
  have reframed : Cpu.Tally mask 0 [] m.cpu (m.cpu.reframe back length) := Cpu.Tally.flags .refl _
  obtain ⟨c, overflows, eq, run⟩ := m.frame_spills back length
  rw [← eq] at reframed
  have spilled := times_tally (x := spill) (fun d t => t.quiet rfl rfl (Int.le_refl _))
    c.spillCount (⟨c, m.bus⟩ : Machine β) reframed
  rw [run]
  exact (spilled.raiseIf overflows .frame).charge .controlTransfer

/-- A return resumes first, and takes its clocks after that. -/
lemma ret_tally {n : Nat} {os : List Operand} {c : Cpu} (m : Machine β) (src : Operand)
    (resumed : Cpu.Tally mask n os c (m.cpu.resume (m.cpu.read src) (m.cpu.read src.next))) :
    Cpu.Tally mask (n + 3) os c ((ret src).run m).2.cpu := by
  obtain ⟨d, eq, run⟩ := m.ret_refills src
  rw [← eq] at resumed
  have refilled := times_tally (x := refill) (fun d t => t.quiet rfl rfl (Int.le_refl _))
    d.refillCount (⟨d, m.bus⟩ : Machine β) resumed
  rw [run]
  exact (refilled.raiseIf _ .privilege).charge .controlTransfer

/-- Every instruction writes what it has to and takes no more clocks than a division that raises. -/
theorem execute_tally (mask : Word) (m : Machine β) (i : Instruction) :
    Cpu.Tallied mask (i.written m.cpu) m.cpu ((execute i).run m).2.cpu := by
  have t : Cpu.Tally mask 0 [] m.cpu m.cpu := .refl
  -- Every case puts its tally together in the order in which the instruction acts.
  cases i with
  | check => exact ((t.raiseIf _ .range).charge .alu).whole (by decide)
  | moveDouble dst => exact (((t.writePair dst _).flags _).charge .doubleAlu).whole (by decide)
  | ret src => exact (m.ret_tally src (t.resume _ _)).whole (by decide)
  | divide dst src signed => exact m.cpu.divide_tally dst src signed
  | indexMove dst => exact (((t.write dst _).raiseIf _ .range).charge .alu).whole (by decide)
  | sum dst _ _ signed | add dst _ signed | sub dst _ signed | neg dst _ signed
  | round dst signed => exact (t.finishAdder dst _ signed).whole (by decide)
  | addCarry dst | subCarry dst | logical op dst | complement dst | moveImmediate dst =>
    exact ((t.assign dst _ _).charge .alu).whole (by decide)
  | compare | testBits | testZeroByte => exact ((t.flags _).charge .alu).whole (by decide)
  | move dst src => exact (((t.readMoved src).assign dst _ _).charge .alu).whole (by decide)
  | privileged => exact ((t.raise .privilege).charge .alu).whole (by decide)
  | mask dst | shift kind dst | rotate dst =>
    exact (((t.write dst _).flags _).charge .alu).whole (by decide)
  | shiftDouble kind dst => exact (((t.writePair dst _).flags _).charge .alu).whole (by decide)
  | leadingZeros dst | set dst => exact ((t.write dst _).charge .alu).whole (by decide)
  | load form addressing data => exact (m.load_tally form addressing data).whole (by decide)
  | store form addressing data => exact (m.store_tally form addressing data).whole (by decide)
  | reservedTransfer address =>
    exact (((t.write address _).report _).charge .memoryWord).whole (by decide)
  | multiply kind dst src => exact m.cpu.multiply_tally kind dst src
  | emulate => exact (t.enterEmulation _ _ _).whole (by decide)
  | accumulate => exact ((t.setAccumulator _).charge .extend).whole (by decide)
  | delayedBranch offset =>
    exact (((t.delayTo _).raiseLockout 2).charge .delayedBranchTaken).whole (by decide)
  | branch offset => exact (((t.jump _).flags _).charge .branchTaken).whole (by decide)
  | fallThrough => exact (t.charge .branchNotTaken).whole (by decide)
  | frame back length => exact (m.frame_tally back length).whole (by decide)
  | call code src addend => exact (m.cpu.call_tally code src addend).whole (by decide)
  | trap number condition => exact (m.cpu.trap_tally number condition).whole (by decide)
  | undefined report cost => exact ((t.report report).charge cost).whole (Cpu.clocks_few cost)
  | reserved report => exact ((t.report report).charge .alu).whole (by decide)

end Machine

end E1Machine
