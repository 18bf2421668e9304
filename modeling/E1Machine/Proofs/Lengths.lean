import E1Machine.Bus.Flat
import E1Machine.Proofs.DelaySlots
import E1Machine.Proofs.Priorities

/-!
# Lengths of instructions

How long an instruction is follows from its halfwords alone: from the operation, from the immediate or offset
field of the word, and where there is another halfword, from its top bit. The state of the processor has no say
in it, although it decides whether extension halfwords are fetched or skipped.

The length is what the program counter has passed when the instruction executes. So it gives the address to
which all else is relative, and it is the length that the status register holds afterwards and in every frame
that is opened on the way.

Main statement: `Machine.length_accounted`.
-/

namespace E1Machine

/-! ## Lengths -/

/-- The length of an instruction with an immediate: its code can ask for a word or a halfword. -/
def immediateLength (word : Half) : Nat :=
  if word.getLsbD 8 then
    match (word.extractLsb' 0 4).toNat with
    | 1 => 3
    | 2 | 3 => 2
    | _ => 1
  else 1

/-- The length of a branch. -/
def offsetLength (word : Half) : Nat := if word.getLsbD 7 then 2 else 1

/-- The length of an instruction with an operand after its word, of which the first halfword is given. -/
def operandLength (first : Half) : Nat := if first.msb then 3 else 2

/-- The length in halfwords of an instruction with some operation. The halfword after the word counts only where
the operation has an operand there. -/
def Operation.length (word first : Half) : Operation → Nat
  | xm | mask | sum | sums | call | loadDisplacement | loadNext | storeDisplacement | storeNext =>
    operandLength first
  | cmpi | movi | addi | addsi | cmpbi | andni | ori | xori => immediateLength word
  | delayedBranch _ | dbr | branch _ | br => offsetLength word
  | extend => 2
  | _ => 1

/-- The length of an instruction in halfwords, by its word and the halfword after it. -/
def instructionLength (word first : Half) : Nat := (Encoding.ofWord word).operation.length word first

/-- The halfword after an instruction of one halfword has no part in its length. -/
lemma instructionLength_one {word first : Half} (one : instructionLength word first = 1) (other : Half) :
    instructionLength word other = 1 := by
  unfold instructionLength at one ⊢
  cases operation : (Encoding.ofWord word).operation with
  | xm | mask | sum | sums | call | loadDisplacement | loadNext | storeDisplacement | storeNext =>
    rw [operation] at one
    have long : operandLength first ≠ 1 := by
      unfold operandLength
      split <;> decide
    exact absurd one long
  | _ =>
    rw [operation] at one
    exact one

/-- An immediate makes an instruction three halfwords long at most. -/
lemma immediateLength_le (word : Half) : 1 ≤ immediateLength word ∧ immediateLength word ≤ 3 := by
  unfold immediateLength
  split
  · split <;> decide
  · decide

/-- Every instruction has one, two or three halfwords. -/
lemma instructionLength_le (word first : Half) :
    1 ≤ instructionLength word first ∧ instructionLength word first ≤ 3 := by
  have offset : 1 ≤ offsetLength word ∧ offsetLength word ≤ 3 := by
    unfold offsetLength
    split <;> decide
  have operand : 1 ≤ operandLength first ∧ operandLength first ≤ 3 := by
    unfold operandLength
    split <;> decide
  unfold instructionLength
  cases (Encoding.ofWord word).operation with
  | xm | mask | sum | sums | call | loadDisplacement | loadNext | storeDisplacement | storeNext =>
    exact operand
  | cmpi | movi | addi | addsi | cmpbi | andni | ori | xori => exact immediateLength_le word
  | delayedBranch | dbr | branch | br => exact offset
  | extend => exact ⟨Nat.le_succ 1, Nat.le_succ 2⟩
  | _ => exact ⟨Nat.le_refl 1, Nat.le_add_right 1 2⟩

namespace Decode

variable {α γ β : Type} [Bus β]

/-- A decoder passes over so many halfwords as a length says, counting the instruction word, when it is told the
halfword after that word. -/
def Measures (length : Half → Nat) (x : Decode β α) : Prop :=
  ∀ (pc : Word) (b : β), ((x.run { pc := pc }).run b).1.2 =
    ⟨pc + BitVec.ofNat 32 (2 * (length ((Bus.fetch pc).run b).1 - 1)),
      length ((Bus.fetch pc).run b).1⟩

/-- What is found without fetching has no halfword after the word. -/
lemma Measures.pure (a : α) : Measures (fun _ => 1) (Pure.pure a : Decode β α) :=
  fun pc _ => congrArg (fun pc => (⟨pc, 1⟩ : Cursor)) (BitVec.add_zero pc).symm

/-- A function of what is found has no part in the length. -/
lemma Measures.map {length : Half → Nat} {x : Decode β α} (measures : Measures length x) (f : α → γ) :
    Measures length (x >>= fun a => Pure.pure (f a)) := fun pc b => measures pc b

/-- Passing over halfwords counts them. -/
lemma Measures.skip (halfwords : Nat) : Measures (fun _ => 1 + halfwords) (skip halfwords : Decode β Unit) := by
  intro pc b
  rw [Nat.add_sub_cancel_left]
  rfl

/-- One halfword is fetched. -/
lemma Measures.one (f : Half → α) :
    Measures (fun _ => 2) (halfword >>= fun first => setLength 2 >>= fun _ => Pure.pure (f first) :
      Decode β α) := fun _ _ => rfl

/-- An operand of one halfword, or of two when bit 15 of the first is set. -/
lemma oneOrTwo_measures (one : Half → α) (two : Half → Half → α) :
    Measures operandLength
      (halfword >>= fun first =>
        if first.msb then
          halfword >>= fun second => setLength 3 >>= fun _ => Pure.pure (two first second)
        else setLength 2 >>= fun _ => Pure.pure (one first) : Decode β α) := by
  intro pc b
  have run : ((halfword >>= fun first =>
      if first.msb then
        halfword >>= fun second => setLength 3 >>= fun _ => Pure.pure (two first second)
      else setLength 2 >>= fun _ => Pure.pure (one first) : Decode β α).run { pc := pc }).run b =
    ((if ((Bus.fetch pc).run b).1.msb then
        halfword >>= fun second => setLength 3 >>= fun _ =>
          Pure.pure (two ((Bus.fetch pc).run b).1 second)
      else setLength 2 >>= fun _ => Pure.pure (one ((Bus.fetch pc).run b).1) : Decode β α).run
        { pc := pc + 2 }).run ((Bus.fetch pc).run b).2 := rfl
  rw [run]
  unfold operandLength
  split
  · exact congrArg (fun pc => (⟨pc, 3⟩ : Cursor)) (BitVec.add_assoc pc 2 2)
  · rfl

/-- The code of an immediate says how many halfwords follow. -/
lemma immediate_measures (word : Half) :
    Measures (fun _ => immediateLength word) (immediate word : Decode β Word) := by
  unfold immediate codedImmediate immediateLength
  split
  · generalize (word.extractLsb' 0 4).toNat = code
    match code with
    | 0 | _ + 4 => exact .pure _
    | 1 => exact fun pc b => congrArg (fun pc => (⟨pc, 3⟩ : Cursor)) (BitVec.add_assoc pc 2 2)
    | 2 | 3 => exact .one _
  · exact .pure _

/-- What is skipped is as long as what is fetched. -/
lemma skipImmediate_measures (word : Half) :
    Measures (fun _ => immediateLength word) (skipImmediate word : Decode β Unit) := by
  unfold skipImmediate skipCodedImmediate immediateLength
  split
  · generalize (word.extractLsb' 0 4).toNat = code
    match code with
    | 0 | _ + 4 => exact fun pc b => Measures.pure () pc b
    | 1 => exact .skip 2
    | 2 | 3 => exact .skip 1
  · exact .pure ()

/-- An offset is as long as bit 7 of its word says. -/
lemma offset_measures (word : Half) :
    Measures (fun _ => offsetLength word) (offset word : Decode β Word) := by
  unfold offset offsetLength
  split
  · exact .one _
  · exact .pure _

/-- What is skipped of a branch is as long as its offset. -/
lemma skipOffset_measures (word : Half) :
    Measures (fun _ => offsetLength word) (skipOffset word : Decode β Unit) := by
  unfold skipOffset offsetLength
  split
  · exact .skip 1
  · exact .pure ()

/-- A move of a literal is as long as its immediate, whether it is fetched or skipped. -/
lemma ofMoveImmediate_measures (word : Half) (status : Status) (dst : Operand) :
    Measures (fun _ => immediateLength word)
      (Instruction.ofMoveImmediate word status dst : Decode β Instruction) := by
  unfold Instruction.ofMoveImmediate
  split
  · exact (skipImmediate_measures word).map fun _ => Instruction.privileged
  · exact (immediate_measures word).map _

/-- A branch is as long as its offset, whether or not it is taken. -/
lemma ofBranch_measures (word : Half) (taken : Bool) (branch : Word → Instruction) :
    Measures (fun _ => offsetLength word)
      (Instruction.ofBranch word taken branch : Decode β Instruction) := by
  unfold Instruction.ofBranch
  cases taken with
  | true => exact (offset_measures word).map branch
  | false => exact (skipOffset_measures word).map fun _ => Instruction.fallThrough

/-- The special immediates are encoded in the word itself. -/
lemma immediateLength_of_nField {word : Half} (special : nField word = 0 ∨ nField word = 31) :
    immediateLength word = 1 := by
  have fields : nField word = 16 * (word.extractLsb' 8 1).toNat + (word.extractLsb' 0 4).toNat := by
    have low := (word.extractLsb' 0 4).isLt
    unfold nField
    rw [BitVec.toNat_append, Nat.shiftLeft_eq, Nat.mul_comm, ← Nat.two_pow_add_eq_or_of_lt low]
  unfold immediateLength
  split
  · next set =>
    have high : (word.extractLsb' 8 1).toNat = 1 := by
      rw [BitVec.getLsbD, Nat.testBit_eq_decide_div_mod_eq, decide_eq_true_eq] at set
      rw [BitVec.extractLsb'_toNat, Nat.shiftRight_eq_div_pow]
      exact set
    have code : (word.extractLsb' 0 4).toNat = 15 := by omega
    rw [code]
    rfl
  · rfl

/-- Decoding passes over the halfwords of the instruction, whatever the status register holds. -/
lemma decode_measures (address : Word) (word : Half) (status : Status) :
    Measures (instructionLength word)
      (Instruction.decode address word status : Decode β (Option Instruction)) := by
  -- Three operations have a code without an immediate, which then counts none either.
  have special {x : Decode β (Option Instruction)} (i : Instruction) {n : Nat}
      (named : n = 0 ∨ n = 31) (rest : Measures (fun _ => immediateLength word) x) :
      Measures (fun _ => immediateLength word) (if nField word = n then Pure.pure (some i) else x) := by
    split
    · next eq =>
      rw [immediateLength_of_nField (by rwa [eq])]
      exact .pure _
    · exact rest
  unfold Instruction.decode instructionLength
  dsimp only
  cases (Encoding.ofWord word).operation with
  | xm => exact (oneOrTwo_measures _ _).map _
  | mask | sum | sums | call => exact (oneOrTwo_measures _ _).map _
  | loadDisplacement | loadNext | storeDisplacement | storeNext => exact (oneOrTwo_measures _ _).map _
  | cmpi | ori | xori => exact (immediate_measures word).map _
  | addi | addsi | cmpbi => exact special _ (.inl rfl) ((immediate_measures word).map _)
  | andni => exact special _ (.inr rfl) ((immediate_measures word).map _)
  | movi => exact (ofMoveImmediate_measures word status _).map _
  | delayedBranch | dbr | branch | br => exact (ofBranch_measures word _ _).map _
  | extend => exact (Measures.one _).map _
  | _ => exact .pure _

end Decode

/-! ## The length while an instruction works -/

/-- The length in the status register that was stacked. -/
def Entry.savedLength (e : Entry) : Nat := (Status.ofBits (e.stacked.getLastD 0)).ilc.toNat

/-- The code of the local register in which the handler of an entry finds the status register. -/
def Entry.statusCode (e : Entry) : Nat := e.stacked.length - 1

/-- The length is saved with the status register that is stacked last, whose field has room for it. -/
lemma Entry.savedLength_eq {e : Entry} {c : Cpu} {n : Nat} (small : n ≤ 3)
    (last : e.stacked.getLastD 0 = (c.noteLength n).status.bits) : e.savedLength = n := by
  unfold savedLength
  rw [last, Status.ofBits_bits]
  exact Nat.mod_eq_of_lt (Nat.lt_succ_of_le small)

namespace Cpu

/-- A write of a register keeps the length. -/
lemma write_length (c : Cpu) (o : Operand) (value : Word) : (c.write o value).length = c.length := by
  obtain ⟨bank, code⟩ := o
  cases bank with
  | locals => rfl
  | globals =>
    obtain ⟨regs, timer, entry, lockout, reports, -, eq⟩ := c.setGlobal_changes code value
    show (c.setGlobal code value).length = _
    rw [eq]

/-- Only a return works on the length of the current instruction. -/
lemma Work.length_eq {i : Instruction} {c d : Cpu} (work : Work i c d) (notRet : ∀ src, i ≠ .ret src) :
    d.length = c.length := by
  cases work with
  | write target value => exact c.write_length _ value
  | call stacked target =>
    obtain ⟨locals, eq⟩ := fillFrame_changes stacked c _
    rw [eq]
    rfl
  | resume | refill => exact absurd rfl (notRet _)
  | _ => rfl

/-- All the work of an instruction other than a return keeps its length. -/
lemma Worked.length_eq {i : Instruction} {c d : Cpu} (worked : Worked i c d)
    (notRet : ∀ src, i ≠ .ret src) : d.length = c.length := by
  induction worked with
  | refl => rfl
  | tail _ work ih => exact (work.length_eq notRet).trans ih

/-- The entry of a handler keeps the length. -/
lemma Enters.length_eq {c d : Cpu} (enters : Enters c d) : d.length = c.length := by
  obtain ⟨regs, lastPc, n, e, -, -, -, rfl⟩ := enters
  rfl

/-- Only a return changes the length of the current instruction. -/
lemma Outcome.length_eq {i : Instruction} {c d : Cpu} (outcome : Outcome i c d)
    (notRet : ∀ src, i ≠ .ret src) : d.length = c.length := by
  obtain ⟨e, worked, ends⟩ := outcome
  rw [← worked.length_eq notRet]
  cases ends with
  | done => rfl
  | enters enters n => exact enters.enters.length_eq
  | advances late value =>
    rw [write_length]
    exact (e.raise_enters _).length_eq

/-- The status register is stacked with the length of the instruction. An emulated one has one halfword. -/
lemma Makes.savedLength {i : Instruction} {m c after : Cpu} {e : Entry} (makes : Makes i m c e after)
    (notRet : ∀ src, i ≠ .ret src) (small : m.length ≤ 3)
    (one : ∀ byte dst src, i = .emulate byte dst src → m.length = 1) : e.savedLength = m.length := by
  have kept := makes.worked.length_eq notRet
  refine Entry.savedLength_eq (c := c) small ?_
  rw [makes.stacked]
  cases i with
  | emulate byte dst src => rw [one byte dst src rfl]; rfl
  | _ => rw [← kept]; rfl

/-- The handler finds the length in the status register that it finds. -/
lemma LeavesFrame.read_savedLength {i : Instruction} {c after : Cpu} {e : Entry} (leaves : LeavesFrame i c e after)
    (kept : ¬ c.Overwrites i) :
    (Status.ofBits (after.read ⟨.locals, e.statusCode⟩)).ilc.toNat = e.savedLength := by
  obtain ⟨d, makes, -⟩ := id leaves
  have last : e.stacked[e.statusCode]? = some (e.stacked.getLastD 0) := by
    unfold Entry.statusCode
    rw [makes.stacked]
    cases i with
    | _ => rfl
  rw [leaves.read kept last]
  rfl

/-- A call saves the status register in the second register of its frame. -/
lemma call_savedLength (c : Cpu) (code : Nat) (src : Operand) (addend : Word) (small : c.length ≤ 3) :
    (Status.ofBits ((c.call code src addend).read ⟨.locals, 1⟩)).ilc.toNat = c.length := by
  obtain ⟨status, filled, -⟩ := c.call_regs code src addend
  have saved := read_filled (k := 1) (by rw [status]) filled (by simp)
  rw [saved]
  show (Status.ofBits (c.noteLength c.length).status.bits).ilc.toNat = _
  rw [Status.ofBits_bits]
  exact Nat.mod_eq_of_lt (Nat.lt_succ_of_le small)

/-- Nothing is followed when nothing is pending. -/
lemma redirect_idle {c : Cpu} (idle : c.delay.target = none) : c.redirect = c := by
  have same : ({} : DelaySlot) = c.delay := congrArg DelaySlot.mk idle.symm
  rw [redirect_eq, idle, same]
  rfl

/-! ## What comes after an instruction -/

/-- The length is noted before a step is traced, and neither moves the address that a return goes to. What enters
a handler then does so from the frame in which the instruction ended. -/
lemma finish_noted (c : Cpu) (wasHigh : Bool) :
    ∃ d : Cpu, d.returnPc = c.returnPc ∧ d.status.ilc = BitVec.ofNat 2 c.length ∧
      d.length = c.length ∧ d.entries = c.entries ∧ (∀ e after, EntersFrame d e after → EntersFrame c e after) ∧
      (c.finish wasHigh = d.retire ∨ c.finish wasHigh = (d.raise .trace).retire) := by
  obtain ⟨d, eq, finished⟩ := c.finish_cases wasHigh
  refine ⟨d, ?_, by rw [eq]; rfl, by rw [eq]; rfl, by rw [eq]; rfl, fun e after enters => ?_,
    finished.imp id fun h => h.2.2⟩
  · have pc : (c.modifyStatus fun s => { s with h := s.h ^^ wasHigh }).regs.pc = c.regs.pc :=
      Registers.global_setStatus _ _ (by decide)
    rw [eq, returnPc_noteLength]
    unfold returnPc
    rw [pc]
    rfl
  · rw [eq] at enters
    obtain ⟨entries, frame, fp, filled, globals⟩ := enters
    exact ⟨entries, frame, fp, filled.congr (fun _ => rfl) fun _ => rfl, fun code notPc notSr =>
      (globals code notPc notSr).trans (Registers.global_setStatus c.regs _ notSr)⟩

end Cpu

namespace Machine

variable {β : Type} [Bus β]

/-- The tasks after an instruction leave its length in the status register. They enter one handler at most, for
which they stack the address where the instruction has led and its length. -/
lemma complete_entry (wasHigh : Bool) (m : Machine β) :
    let after := ((complete wasHigh).run m).2.cpu
    after.status.ilc = BitVec.ofNat 2 m.cpu.length ∧
    (after.entries = m.cpu.entries ∨ ∃ (e : Entry) (c : Cpu), Cpu.EntersFrame m.cpu e after ∧
      e.stacked = [m.cpu.returnPc, (c.noteLength m.cpu.length).status.bits]) := by
  intro after
  obtain ⟨d, returns, ilc, length, entries, before, finished⟩ := m.cpu.finish_noted wasHigh
  rw [← returns, ← length, ← entries]
  rw [← length] at ilc
  obtain finished | finished := finished
  · obtain run | ⟨source, -, run⟩ := complete_cpu wasHigh m
    · have ended : after = d.retire := run.trans finished
      rw [ended]
      exact ⟨ilc, .inl rfl⟩
    · have takes := d.retire.takeInterrupt_takes source
      have ended : after = d.retire.takeInterrupt source := by
        rw [← finished]
        exact run
      obtain ⟨e, ⟨pushed, frame, fp, filled, globals⟩, -, stacked⟩ := takes.entry
      rw [ended, takes.status]
      exact ⟨rfl, .inr ⟨e, d, before _ _ ⟨pushed, frame, fp, filled, globals⟩, stacked⟩⟩
  · obtain ⟨e, ⟨pushed, frame, fp, filled, globals⟩, stacked, status, -⟩ :=
      d.enterFrame_frame (.exception .trace) (d.entry.vector Exception.trace.trapNumber) 2
    obtain run | ⟨source, due, -⟩ := complete_cpu wasHigh m
    · have ended : after = (d.raise .trace).retire := run.trans finished
      rw [ended]
      exact ⟨congrArg Status.ilc status,
        .inr ⟨e, d, before _ _ ⟨pushed, frame, fp, filled, globals⟩, stacked⟩⟩
    · -- The handler of the trace exception starts with interrupts locked.
      have locked : (m.cpu.finish wasHigh).status.l = true := by
        rw [finished]
        exact congrArg Status.l status
      rw [Cpu.due_none (.inl locked)] at due
      cases due

/-- The tasks after an instruction note its length, and stack it with the address to which it has led, in the
log and in the registers of the new frame. -/
lemma complete_noted (wasHigh : Bool) (m : Machine β) (small : m.cpu.length ≤ 3) :
    let after := ((complete wasHigh).run m).2
    after.cpu.status.ilc.toNat = m.cpu.length ∧
    ∀ e ∈ entered m after, (e.savedLength = m.cpu.length ∧
        e.returnAddress = Cpu.returnTo m.cpu.regs.pc m.cpu.status.s) ∧
      Cpu.EntersFrame m.cpu e after.cpu ∧
        (Status.ofBits (after.cpu.read ⟨.locals, 1⟩)).ilc.toNat = m.cpu.length ∧
        after.cpu.read ⟨.locals, 0⟩ = Cpu.returnTo m.cpu.regs.pc m.cpu.status.s := by
  intro after
  obtain ⟨ilc, left⟩ := m.complete_entry wasHigh
  refine ⟨(congrArg BitVec.toNat ilc).trans (Nat.mod_eq_of_lt (Nat.lt_succ_of_le small)),
    fun e enters => ?_⟩
  obtain quiet | ⟨e', c, enters', stacked⟩ := left
  · rw [entered_none quiet] at enters
    cases enters
  · rw [entered_push enters'.entries] at enters
    cases List.mem_singleton.mp enters
    have saved : e.savedLength = m.cpu.length := Entry.savedLength_eq (c := c) small (by rw [stacked]; rfl)
    have returns : e.returnAddress = Cpu.returnTo m.cpu.regs.pc m.cpu.status.s := by
      unfold Entry.returnAddress
      rw [stacked]
      rfl
    have last : e.stacked[1]? = some (e.stacked.getLastD 0) := by rw [stacked]; rfl
    refine ⟨⟨saved, returns⟩, enters', ?_, enters'.read (by rw [stacked]; rfl)⟩
    rw [enters'.read last]
    exact saved

/-! ## Accounting for the length -/

/-- The length of the instruction that is to be executed next, by the halfwords at its address. -/
def nextLength (m : Machine β) : Nat :=
  instructionLength ((Bus.fetch m.cpu.regs.pc).run m.bus).1
    ((Bus.fetch (m.cpu.regs.pc + 2)).run ((Bus.fetch m.cpu.regs.pc).run m.bus).2).1

/-- The address that follows that instruction. -/
def nextAddress (m : Machine β) : Word := m.cpu.regs.pc + BitVec.ofNat 32 (2 * m.nextLength)

/-- The length of instruction `i` is accounted for wherever it shows. The instruction is about to run on `m` and
has been fetched in `c`. In `done` it has been executed, and in `after` it is completed. What an entry stacks is
also what the handler finds in its registers, unless the instruction writes over it. -/
structure Accounted (i : Instruction) (m c done after : Machine β) : Prop where
  counter : c.cpu.regs.pc = m.nextAddress
  onward (stays : i.jumps = false) (other : ¬ i.WritesCounter) (quiet : entered m done = []) :
    done.cpu.regs.pc = m.nextAddress
  branch {offset : Word} (branches : i = .branch offset) :
    done.cpu.regs.pc = m.nextAddress + offset
  delayed {offset : Word} (delays : i = .delayedBranch offset) :
    done.cpu.delay.target = some (m.nextAddress + offset)
  call {code : Nat} {src : Operand} {addend : Word} (calls : i = .call code src addend) :
    done.cpu.read ⟨.locals, 0⟩ = Cpu.returnTo m.nextAddress m.cpu.status.s ∧
      (Status.ofBits (done.cpu.read ⟨.locals, 1⟩)).ilc.toNat = m.nextLength
  entry {e : Entry} (enters : e ∈ entered m done) : e.savedLength = m.nextLength ∧
    (¬ i.WritesCounter → e.returnAddress = Cpu.returnTo m.nextAddress m.cpu.status.s)
  frame {e : Entry} (enters : e ∈ entered m done) : Cpu.LeavesFrame i c.cpu e done.cpu
  found {e : Entry} (enters : e ∈ entered m done) (kept : ¬ c.cpu.Overwrites i) :
    (Status.ofBits (done.cpu.read ⟨.locals, e.statusCode⟩)).ilc.toNat = m.nextLength ∧
      (¬ i.WritesCounter → done.cpu.read ⟨.locals, e.returnCode⟩ = Cpu.returnTo m.nextAddress m.cpu.status.s)
  late {e : Entry} (enters : e ∈ entered done after) : e.savedLength = m.nextLength ∧
    e.returnAddress = Cpu.returnTo done.cpu.regs.pc done.cpu.status.s
  lateFound {e : Entry} (enters : e ∈ entered done after) : Cpu.EntersFrame done.cpu e after.cpu ∧
    (Status.ofBits (after.cpu.read ⟨.locals, 1⟩)).ilc.toNat = m.nextLength ∧
    after.cpu.read ⟨.locals, 0⟩ = Cpu.returnTo done.cpu.regs.pc done.cpu.status.s
  noted : after.cpu.status.ilc.toNat = m.nextLength

/-- The next instruction has one, two or three halfwords. -/
lemma nextLength_le (m : Machine β) : 1 ≤ m.nextLength ∧ m.nextLength ≤ 3 := instructionLength_le _ _

/-- An instruction to be emulated is one halfword long. -/
lemma nextLength_of_software {m : Machine β} (software : m.operation = .software) :
    m.nextLength = 1 := by
  unfold operation at software
  unfold nextLength instructionLength
  rw [software]
  rfl

/-- The address that follows an even one is even. -/
lemma nextAddress_even {m : Machine β} (even : m.cpu.regs.pc.toNat % 2 = 0) :
    m.nextAddress.toNat % 2 = 0 := by
  refine even_add even ?_
  rw [BitVec.toNat_ofNat]
  omega

/-- Decoding starts after the instruction word and ends at the address that follows. -/
lemma nextAddress_eq (m : Machine β) :
    m.cpu.regs.pc + 2 + BitVec.ofNat 32 (2 * (m.nextLength - 1)) = m.nextAddress := by
  have sum : 2 * m.nextLength = 2 + 2 * (m.nextLength - 1) := by
    have := m.nextLength_le
    omega
  unfold nextAddress
  rw [sum, BitVec.ofNat_add, ← BitVec.add_assoc]
  rfl

/-- Without a pending delayed branch, an instruction executes at the address that follows it as one in a delay
slot does at the target. -/
lemma fetchNext_sequential (m : Machine β) (even : m.cpu.regs.pc.toNat % 2 = 0)
    (idle : m.cpu.delay.target = none) (meaningful : m.operation ≠ .unimplemented) :
    ∃ i c, fetchNext.run m = (.ok i, c) ∧ c.cpu.length = m.nextLength ∧
      InSlot m.nextAddress i m c ((execute i).run c).2 := by
  obtain ⟨i, cursor, bus, decoded, fetched, dst, src, fits⟩ := m.fetchNext_meaningful meaningful
  have measured := Decode.decode_measures m.cpu.regs.pc ((Bus.fetch m.cpu.regs.pc).run m.bus).1
    m.cpu.status (alignHalf (m.cpu.regs.pc + 2)) ((Bus.fetch m.cpu.regs.pc).run m.bus).2
  obtain ⟨n, few, row⟩ := Decode.decode_inRow m.cpu.regs.pc ((Bus.fetch m.cpu.regs.pc).run m.bus).1
    m.cpu.status { pc := alignHalf (m.cpu.regs.pc + 2) } ((Bus.fetch m.cpu.regs.pc).run m.bus).2
  rw [decoded] at measured row
  -- Without a target pending the cursor is all that moves the program counter.
  have place : cursor = ⟨m.nextAddress, m.nextLength⟩ := by
    have start : alignHalf (m.cpu.regs.pc + 2) = m.cpu.regs.pc + 2 :=
      alignHalf_of_even (even_add even (by decide))
    rw [start] at measured
    exact Eq.trans measured (congrArg (fun pc => (⟨pc, m.nextLength⟩ : Cursor)) m.nextAddress_eq)
  have found : (m.cpu.begin.continueAt cursor).delay.target = none := idle
  rw [Cpu.redirect_idle found, ite_self] at fetched
  have entries := m.fetchNext_entries
  have status := m.fetchNext_confined.2
  rw [fetched] at entries status
  refine ⟨i, _, fetched, ?_, execute_slot fits (nextAddress_even even) entries status ?_ idle
    ⟨n, few, row⟩⟩
  · rw [place]
    rfl
  · rw [place]
    exact (Registers.pc_setPc _ _).trans (alignHalf_of_even (nextAddress_even even))

/-- The length that an instruction stacks is its own. -/
lemma execute_savedLength {c : Machine β} {i : Instruction} {e : Entry} (notRet : ∀ src, i ≠ .ret src)
    (small : c.cpu.length ≤ 3) (one : ∀ byte dst src, i = .emulate byte dst src → c.cpu.length = 1)
    (leaves : Cpu.LeavesFrame i c.cpu e ((execute i).run c).2.cpu) : e.savedLength = c.cpu.length := by
  obtain ⟨d, makes, -⟩ := leaves
  exact makes.savedLength notRet small one

/-- The length of an instruction follows from its halfwords. An instruction other than a return that is to be
executed on an even address, in no delay slot, has exactly this length in all that it does: it goes on from the
address that follows it, counts from there or stacks it, and notes its length in the status register. -/
theorem length_accounted (m : Machine β) (even : m.cpu.regs.pc.toNat % 2 = 0)
    (idle : m.cpu.delay.target = none) (meaningful : m.operation ≠ .unimplemented) :
    (∀ word first, 1 ≤ instructionLength word first ∧ instructionLength word first ≤ 3 ∧
      (instructionLength word first = 1 → ∀ other, instructionLength word other = 1)) ∧
    ∃ i c after, fetchNext.run m = (.ok i, c) ∧ executeOne.run m = (.ok (), after) ∧
      ((∀ src, i ≠ .ret src) → Accounted i m c ((execute i).run c).2 after) := by
  refine ⟨fun word first => ⟨(instructionLength_le word first).1, (instructionLength_le word first).2,
    instructionLength_one⟩, ?_⟩
  obtain ⟨i, c, fetched, length, slot⟩ := m.fetchNext_sequential even idle meaningful
  refine ⟨i, c, ((complete m.cpu.status.h).run ((execute i).run c).2).2, fetched, ?_,
    fun notRet => ?_⟩
  · rw [m.executeOne_eq, fetched]
    rfl
  have small : c.cpu.length ≤ 3 := Nat.le_trans (Nat.le_of_eq length) m.nextLength_le.2
  -- An emulation stacks the length one, which is that of its instruction.
  have one (byte : Byte) (dst src : Nat) (emulates : i = .emulate byte dst src) : c.cpu.length = 1 := by
    have control := slot.control
    rw [emulates] at control
    rw [length, nextLength_of_software (Operation.eq_of_control (.inr rfl) control.symm)]
  have left : ((execute i).run c).2.cpu.length = c.cpu.length :=
    (c.execute_outcome i).length_eq notRet
  obtain ⟨noted, late⟩ := complete_noted m.cpu.status.h ((execute i).run c).2
    (Nat.le_trans (Nat.le_of_eq left) small)
  rw [left, length] at noted late
  have saved {e : Entry} (enters : e ∈ entered m ((execute i).run c).2) : e.savedLength = m.nextLength :=
    (execute_savedLength notRet small one (slot.frame enters)).trans length
  exact {
    counter := slot.redirected.1
    onward := slot.onward
    branch := slot.branch
    delayed := fun delays => (slot.delayed delays).2
    call := fun calls => by
      refine ⟨slot.call calls, ?_⟩
      rw [calls, ← length]
      exact c.cpu.call_savedLength _ _ _ small
    entry := fun enters => ⟨saved enters, fun other => (slot.entry enters notRet other).2⟩
    frame := slot.frame
    found := fun enters kept => ⟨((slot.frame enters).read_savedLength kept).trans (saved enters),
      fun other => slot.found enters notRet other kept⟩
    late := fun enters => (late _ enters).1
    lateFound := fun enters => (late _ enters).2
    noted := noted }

/-- User code that is to move a word of two halfwords into a high global register. -/
def beforeLongMove : Machine (DeviceBus FlatMemory) :=
  let m := (powerOn Variant.e132t.config
    (({} : FlatMemory).loadHalves 0x1000 [0x6551, 0x1234, 0x5678])).session
      [.host .reset, .host (.setGlobal Global.pc 0x1000)]
  ⟨m.cpu.modifyStatus fun s => { s with s := false, l := false, h := true }, m.bus⟩

/-- The privilege error is raised for an instruction of three halfwords, although the word is only skipped. -/
theorem longMove_accounted :
    (fetchNext.run beforeLongMove).1.toOption = some .privileged ∧
      (executeOne.run beforeLongMove).2.cpu.status.ilc.toNat = 3 ∧
      let done := ((execute .privileged).run (fetchNext.run beforeLongMove).2).2
      ∃ e, entered beforeLongMove done = [e] ∧ e.savedLength = 3 ∧ e.returnAddress = Cpu.returnTo 0x1006 false ∧
        done.cpu.read ⟨.locals, e.returnCode⟩ = Cpu.returnTo 0x1006 false := by
  have decoded : (fetchNext.run beforeLongMove).1.toOption = some .privileged := by decide +kernel
  have one : (entered beforeLongMove
      ((execute .privileged).run (fetchNext.run beforeLongMove).2).2).length = 1 := by decide +kernel
  have long : beforeLongMove.nextLength = 3 ∧ beforeLongMove.nextAddress = 0x1006 ∧
      beforeLongMove.cpu.status.s = false := by decide +kernel
  obtain ⟨-, i, c, after, fetched, ran, accounted⟩ :=
    length_accounted beforeLongMove (by decide +kernel) (by decide +kernel) (by decide +kernel)
  rw [fetched] at decoded one ⊢
  cases decoded
  obtain ⟨e, entry⟩ := List.length_eq_one_iff.mp one
  have accounted := accounted nofun
  have enters : e ∈ entered beforeLongMove ((execute .privileged).run c).2 := by
    rw [entry]
    exact List.mem_singleton_self e
  have other : ¬ Instruction.privileged.WritesCounter := by
    rintro ⟨o, target, -⟩
    exact List.not_mem_nil target
  have kept : ¬ c.cpu.Overwrites .privileged := by
    rintro ⟨form, address, step, data, ⟨⟩, -⟩
  obtain ⟨saved, returns⟩ := accounted.entry enters
  obtain ⟨-, found⟩ := accounted.found enters kept
  have noted := accounted.noted
  rw [long.1] at saved noted
  rw [long.2.1, long.2.2] at returns found
  rw [ran]
  exact ⟨rfl, noted, e, entry, saved, returns other, found other⟩

end Machine

end E1Machine
