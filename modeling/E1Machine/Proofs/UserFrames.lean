import E1Machine.Bus.Flat
import E1Machine.Proofs.HighFlag
import E1Machine.Proofs.Returning

/-!
# Frames that user code enters

A handler that interrupts user code returns to it: bit 0 of the stacked return address is the supervisor
flag at the moment of the entry, and user code has it clear. Two instructions break this. A return takes over
the supervisor flag with bit 0 of the address to which it returns, and finds out that this breaks privilege
only then, so the handler of the privilege error is entered from supervisor state. And a signed store that
advances local register 0 writes the advanced address over the return address in the frame of the range error.

Main statement: `Machine.user_frame_iff`, what user code enters returns to supervisor state exactly if the
instruction is such a return or store.
-/

namespace E1Machine

namespace Cpu

/-! ## What an instruction of user code leaves -/

/-- A handler has been entered through `e` and is about to start: it finds a word as return address, and runs
in supervisor state with interrupts locked and without single steps. -/
structure Handling (c : Cpu) (e : Entry) (word : Word) (d : Cpu) : Prop where
  entries : d.entries = c.entries.push e
  fp : d.status.fp = e.frame
  returns : d.read ⟨.locals, 0⟩ = word
  supervisor : d.status.s = true
  locked : d.status.l = true
  untraced : d.status.t = false

/-- The entry of a handler leaves it the return address in force. -/
lemma enterFrame_handling (c : Cpu) (cause : EntryCause) (vector : Word) (length : BitVec 4) :
    ∃ e, Handling c e c.returnPc (c.enterFrame cause vector length) := by
  obtain ⟨e, enters, stacked, status, -⟩ := c.enterFrame_frame cause vector length
  have filled := enters.filled
  rw [stacked] at filled
  refine ⟨e, enters.entries, enters.fp, ?_, by rw [status], by rw [status], by rw [status]⟩
  show (c.enterFrame cause vector length).regs.localAt
    (localSlot 0 (c.enterFrame cause vector length).status.fp.toNat) = _
  rw [enters.fp]
  exact filled.holds 0 (by simp)

/-- Time that passes before the handler starts changes nothing for it. -/
lemma Handling.spend {c d : Cpu} {e : Entry} {word : Word} (handling : Handling c e word d) (n : Nat) :
    Handling c e word (d.spend n) :=
  ⟨handling.entries, handling.fp, handling.returns, handling.supervisor, handling.locked,
    handling.untraced⟩

/-- A handler that was entered from one processor was entered from every other with the same log. -/
lemma Handling.ofEntries {c c' d : Cpu} {e : Entry} {word : Word} (handling : Handling c e word d)
    (same : c.entries = c'.entries) : Handling c' e word d :=
  { handling with entries := same ▸ handling.entries }

/-- An interrupt that is taken leaves its handler the return address in force. -/
lemma takeInterrupt_handling (c : Cpu) (source : InterruptSource) :
    ∃ e, Handling c e c.returnPc (c.takeInterrupt source) := by
  obtain ⟨timer, eq⟩ : ∃ timer, c.takeInterrupt source =
      ({ c with timer := timer } : Cpu).enterInterrupt source := ⟨_, rfl⟩
  obtain ⟨e, handling⟩ := ({ c with timer := timer } : Cpu).enterFrame_handling (.interrupt source)
    (c.entry.vector source.trapNumber) 2
  rw [eq]
  exact ⟨e, handling.ofEntries rfl⟩

/-- A write of a register other than the status register leaves the handler as it is, but for the return
address if that is the register. -/
lemma Handling.write {c d : Cpu} {e : Entry} {word : Word} (handling : Handling c e word d)
    {o : Operand} (other : ¬ o.IsStatus) (value : Word) :
    Handling c e (if o.bank = .locals ∧ o.code % 64 = 0 then value else word) (d.write o value) := by
  have status := d.write_status_of_other other value
  refine ⟨(d.write_entries o value).trans handling.entries, ?_, ?_, ?_, ?_, ?_⟩
  · rw [status, handling.fp]
  · have written := d.write_localAt o value (d.regs.slot 0)
    have same : d.regs.slot o.code = d.regs.slot 0 ↔ o.code % 64 = 0 := by
      constructor
      · exact localSlot_inj
      · intro multiple
        apply Fin.ext
        simp only [Registers.slot, localSlot, Fin.val_ofNat]
        omega
    have slot : (d.write o value).regs.slot 0 = d.regs.slot 0 :=
      congrArg (fun s : Status => localSlot 0 s.fp.toNat) status
    show (d.write o value).regs.localAt ((d.write o value).regs.slot 0) = _
    rw [slot, written]
    exact if_congr (and_congr_right fun _ => same) rfl handling.returns
  · rw [status, handling.supervisor]
  · rw [status, handling.locked]
  · rw [status, handling.untraced]

/-- Whether an instruction returns to an odd address. -/
def ReturnsOdd (c : Cpu) (i : Instruction) : Prop :=
  ∃ src, i = .ret src ∧ (c.read src).getLsbD 0 = true

/-- Whether an instruction is a signed store of a value that does not fit, which advances local register 0
to an odd address. -/
def AdvancesOdd (c : Cpu) (i : Instruction) : Prop :=
  ∃ form address step data, i = .store form (.advancing address step) data ∧
    form.loses (c.stored data).1 = true ∧ (address.bank = .locals ∧ address.code % 64 = 0) ∧
    (c.read address + step).getLsbD 0 = true

/-- Whether an instruction of user code enters a handler that returns to supervisor state. -/
def Escapes (c : Cpu) (i : Instruction) : Prop := ReturnsOdd c i ∨ AdvancesOdd c i

/-- What an instruction of user code leaves: user code, the emulation of an instruction, or a handler. -/
inductive Leaves (c : Cpu) (i : Instruction) (d : Cpu) : Prop where
  | user (entries : d.entries = c.entries) (user : d.status.s = false) (stays : ¬ Escapes c i)
  | emulation (e : Entry) (byte : Byte) (cause : e.cause = .emulation byte)
    (entries : d.entries = c.entries.push e) (locked : d.status.l = true) (untraced : d.status.t = false)
  | handler (e : Entry) (word : Word) (handling : Handling c e word d)
    (returns : word.getLsbD 0 = true ↔ Escapes c i)

/-- The exceptions and traps of an instruction that stays in user state return there. -/
lemma EntersBy.leaves {i : Instruction} {c d d' : Cpu} (worked : Worked i c d)
    (user : d.status.s = false) (stays : ¬ Escapes c i) (enters : EntersBy i d d') (n : Nat) :
    Leaves c i (d'.spend n) := by
  have entries : d.entries = c.entries := Worked.entries_eq worked
  have returns : d.returnPc.getLsbD 0 = true ↔ Escapes c i := by
    rw [d.returnPc_bit, user]
    exact ⟨nofun, fun escapes => absurd escapes stays⟩
  have framed (cause : EntryCause) (vector : Word) (length : BitVec 4) :
      Leaves c i ((d.enterFrame cause vector length).spend n) := by
    obtain ⟨e, handling⟩ := d.enterFrame_handling cause vector length
    exact .handler e _ ((handling.ofEntries entries).spend n) returns
  cases enters with
  | trap => exact framed _ _ _
  | exception => exact framed _ _ _
  | @emulation byte dst src =>
    obtain ⟨e, cause, pushed⟩ := d.enterEmulation_cause byte dst src
    obtain ⟨-, -, -, status, -⟩ := d.enterEmulation_frame byte dst src
    -- The routine is a variable from here on, so that nothing computes it.
    generalize d.enterEmulation byte dst src = routine at pushed status
    refine .emulation e byte cause (pushed.trans (by rw [entries])) ?_ ?_
    · exact congrArg Status.l status
    · exact congrArg Status.t status

/-! ## The end of an instruction -/

/-- A handler that has been entered is not left before its first instruction: no step is traced there. -/
lemma Handling.finish {c d : Cpu} {e : Entry} {word : Word} (handling : Handling c e word d)
    (wasHigh : Bool) : Handling c e word (d.finish wasHigh) := by
  obtain ⟨d', eq, run | ⟨traced, -, -⟩⟩ := d.finish_cases wasHigh
  · rw [run, eq]
    exact ⟨handling.entries, handling.fp, handling.returns, handling.supervisor, handling.locked,
      handling.untraced⟩
  · rw [eq] at traced
    cases handling.untraced.symm.trans traced

/-- And no interrupt is taken there. -/
lemma Handling.undisturbed {c d : Cpu} {e : Entry} {word : Word} (handling : Handling c e word d) :
    d.interruptDue = none :=
  d.recognized_iff.mp (.inr (.inl handling.locked))

/-- What is left of user code when an instruction finishes: user code, or a trace handler that returns
there. -/
lemma finish_user (c : Cpu) (wasHigh : Bool) (user : c.status.s = false) :
    ((c.finish wasHigh).entries = c.entries ∧ (c.finish wasHigh).status.s = false) ∨
    ∃ e word, Handling c e word (c.finish wasHigh) ∧ word.getLsbD 0 = false := by
  obtain ⟨d, eq, finished⟩ := c.finish_cases wasHigh
  obtain ⟨entries, still⟩ : d.entries = c.entries ∧ d.status.s = false := by
    rw [eq]
    exact ⟨rfl, user⟩
  obtain run | ⟨-, -, run⟩ := finished
  · rw [run]
    exact .inl ⟨entries, still⟩
  · obtain ⟨e, handling⟩ := d.enterFrame_handling (.exception .trace)
      (d.entry.vector Exception.trace.trapNumber) 2
    have traced := handling.ofEntries entries
    rw [run]
    refine .inr ⟨e, d.returnPc, ?_, d.returnPc_bit.trans still⟩
    exact ⟨traced.entries, traced.fp, traced.returns, traced.supervisor, traced.locked, traced.untraced⟩

end Cpu

namespace Machine

variable {β : Type} [Bus β]

/-- A return of user code stays in user state, or enters the handler of the privilege error from the state to
which it returns. -/
lemma ret_leaves (m : Machine β) (src : Operand) (user : m.cpu.status.s = false) :
    m.cpu.Leaves (.ret src) ((execute (.ret src)).run m).2.cpu := by
  obtain ⟨c, -, resumed, run⟩ := m.ret_cpu src
  have escapes : m.cpu.Escapes (.ret src) ↔ c.status.s = true := by
    rw [resumed.status]
    constructor
    · rintro (⟨_, ⟨⟩, odd⟩ | ⟨_, _, _, _, ⟨⟩, -⟩)
      exact odd
    · exact fun odd => .inl ⟨src, rfl, odd⟩
  show m.cpu.Leaves (.ret src) ((ret src).run m).2.cpu
  rw [run]
  cases breaks : Cpu.breaksPrivilege m.cpu.status c.status with
  | true =>
    obtain ⟨e, handling⟩ := c.enterFrame_handling (.exception .privilege)
      (c.entry.vector Exception.privilege.trapNumber) 2
    refine .handler e c.returnPc ((handling.ofEntries resumed.entries).spend _) ?_
    rw [c.returnPc_bit, escapes]
  | false =>
    have still : c.status.s = false := by
      unfold Cpu.breaksPrivilege at breaks
      rw [user] at breaks
      exact (Bool.or_eq_false_iff.mp breaks).1
    exact .user resumed.entries still (by rw [escapes, still]; exact Bool.false_ne_true)

/-- A store of user code that advances its address register raises no error, or the register is written in the
frame of the error. -/
lemma store_leaves (m : Machine β) (form : DataForm) {address : Operand} (step : Word) (data : Operand)
    (late : form.isSigned = true → ¬ address.IsStatus) (user : m.cpu.status.s = false) :
    m.cpu.Leaves (.store form (.advancing address step) data)
      ((execute (.store form (.advancing address step) data)).run m).2.cpu := by
  obtain ⟨fits, raises⟩ := m.advancing_cpu form address data step
  -- For an advancing store the only way to escape is over the return address.
  have escapes : m.cpu.Escapes (.store form (.advancing address step) data) ↔
      form.loses (m.cpu.stored data).1 = true ∧ (address.bank = .locals ∧ address.code % 64 = 0) ∧
        (m.cpu.read address + step).getLsbD 0 = true := by
    constructor
    · rintro (⟨_, ⟨⟩, -⟩ | ⟨_, _, _, _, ⟨⟩, advances⟩)
      exact advances
    · exact fun advances => .inr ⟨form, address, step, data, rfl, advances⟩
  cases loses : form.loses (m.cpu.stored data).1 with
  | false =>
    obtain ⟨d, left, run⟩ := m.store_cpu form (.advancing address step) data
    have still : d.status.s = false := by
      obtain rfl | ⟨-, slot, value, rfl⟩ := left
      · exact user
      · exact user
    refine .user (fits loses) ?_ fun advances => ?_
    · show ((store form (.advancing address step) data).run m).2.cpu.status.s = false
      rw [run, loses]
      obtain eq | eq := d.write_status address (m.cpu.transferAddress (.advancing address step) + step)
      · exact (congrArg Status.s eq).trans still
      · exact (congrArg Status.s eq).trans still
    · cases loses.symm.trans (escapes.mp advances).1
  | true =>
    obtain ⟨e, handling⟩ := (m.cpu.charge form.cost).enterFrame_handling (.exception .range)
      ((m.cpu.charge form.cost).entry.vector Exception.range.trapNumber) 2
    have written := handling.write (late (DataForm.signed_of_loses loses)) (m.cpu.read address + step)
    rw [raises loses]
    refine .handler e _ (written.ofEntries rfl) ?_
    rw [escapes]
    -- Whether the advanced register is the first of the frame decides whose low bit the handler finds.
    by_cases first : address.bank = .locals ∧ address.code % 64 = 0
    · rw [if_pos first]
      exact ⟨fun odd => ⟨loses, first, odd⟩, fun advances => advances.2.2⟩
    · rw [if_neg first, Cpu.returnPc_bit, show (m.cpu.charge form.cost).status.s = false from user]
      exact ⟨nofun, fun advances => absurd advances.2.1 first⟩

/-- What an instruction of user code leaves, if what it writes late is not the status register. -/
lemma execute_leaves (m : Machine β) {i : Instruction} (late : ∀ o, i.late = some o → ¬ o.IsStatus)
    (user : m.cpu.status.s = false) : m.cpu.Leaves i ((execute i).run m).2.cpu := by
  by_cases returns : ∃ src, i = .ret src
  · obtain ⟨src, rfl⟩ := returns
    exact m.ret_leaves src user
  by_cases advancing : ∃ form address step data, i = .store form (.advancing address step) data
  · obtain ⟨form, address, step, data, rfl⟩ := advancing
    refine m.store_leaves form step data (fun signed => late address ?_) user
    exact if_pos signed
  -- All others are done before they enter a handler.
  have stays : ¬ m.cpu.Escapes i := by
    rintro (⟨src, eq, -⟩ | ⟨form, address, step, data, eq, -⟩)
    · exact returns ⟨src, eq⟩
    · exact advancing ⟨form, address, step, data, eq⟩
  obtain ⟨c, worked, ends⟩ := m.execute_outcome i
  generalize ((execute i).run m).2.cpu = after at ends
  have still : c.status.s = false := (worked.user fun src eq => returns ⟨src, eq⟩).trans user
  cases ends with
  | done => exact .user (Cpu.Worked.entries_eq worked) still stays
  | enters enters n => exact enters.leaves worked still stays n
  | advances isLate value =>
    obtain ⟨form, step, data, eq⟩ := Instruction.late_eq isLate
    exact absurd ⟨form, _, step, data, eq⟩ advancing

/-- Completing an instruction leaves a handler that it has entered. -/
lemma complete_handling {m : Machine β} {c : Cpu} {e : Entry} {word : Word} (wasHigh : Bool)
    (handling : c.Handling e word m.cpu) : c.Handling e word ((complete wasHigh).run m).2.cpu := by
  have finished := handling.finish wasHigh
  obtain run | ⟨source, due, -⟩ := complete_cpu wasHigh m
  · rw [run]
    exact finished
  · cases finished.undisturbed.symm.trans due

/-- What is entered when an instruction completes in user state returns there. -/
lemma complete_user (m : Machine β) (wasHigh : Bool) (user : m.cpu.status.s = false) :
    ((complete wasHigh).run m).2.cpu.entries = m.cpu.entries ∨
    ∃ e word, m.cpu.Handling e word ((complete wasHigh).run m).2.cpu ∧ word.getLsbD 0 = false := by
  have finished := m.cpu.finish_user wasHigh user
  obtain run | ⟨source, due, run⟩ := complete_cpu wasHigh m
  · rw [run]
    exact finished.imp And.left id
  · obtain ⟨entries, still⟩ | ⟨e, word, handling, -⟩ := finished
    · generalize m.cpu.finish wasHigh = c at entries still run
      obtain ⟨e, handling⟩ := c.takeInterrupt_handling source
      rw [run]
      exact .inr ⟨e, c.returnPc, handling.ofEntries entries, c.returnPc_bit.trans still⟩
    · cases handling.undisturbed.symm.trans due

/-- Nothing else is entered when the emulation of an instruction begins. -/
lemma complete_emulation {m : Machine β} (wasHigh : Bool) (locked : m.cpu.status.l = true)
    (untraced : m.cpu.status.t = false) :
    ((complete wasHigh).run m).2.cpu.entries = m.cpu.entries := by
  have finished : (m.cpu.finish wasHigh).entries = m.cpu.entries ∧
      (m.cpu.finish wasHigh).status.l = true := by
    obtain ⟨d, eq, run | ⟨traced, -, -⟩⟩ := m.cpu.finish_cases wasHigh
    · rw [run, eq]
      exact ⟨rfl, locked⟩
    · rw [eq] at traced
      cases untraced.symm.trans traced
  obtain run | ⟨source, due, -⟩ := complete_cpu wasHigh m
  · rw [run]
    exact finished.1
  · cases ((Cpu.recognized_iff _).mp (.inr (.inl finished.2))).symm.trans due

/-! ## What user code enters -/

/-- Whether the next instruction enters a handler that returns to supervisor state, from user state. -/
def EscapesUser (m : Machine β) : Prop :=
  ∃ i c, fetchNext.run m = (.ok i, c) ∧ c.cpu.Escapes i

/-- A handler returns to the state that bit 0 of its return address says. -/
lemma handling_returns {m : Machine β} {c : Cpu} {e : Entry} {word : Word}
    (handling : c.Handling e word m.cpu) :
    ((execute (.ret ⟨.locals, 0⟩)).run m).2.cpu.status.s = word.getLsbD 0 := by
  obtain ⟨d, -, resumed, run⟩ := m.ret_cpu ⟨.locals, 0⟩
  have allowed : Cpu.breaksPrivilege m.cpu.status d.status = false := by
    unfold Cpu.breaksPrivilege
    rw [handling.supervisor, handling.locked]
    simp
  show ((Machine.ret ⟨.locals, 0⟩).run m).2.cpu.status.s = _
  rw [run, allowed]
  refine (congrArg Status.s resumed.status).trans ?_
  rw [handling.returns]

/-- An instruction cycle from user state enters no handler, the emulation of an instruction, or a handler that
returns to supervisor state exactly if the instruction escapes. -/
lemma instruction_leaves (m : Machine β) (user : m.cpu.status.s = false) :
    let after := m.move .instruction
    after.cpu.entries = m.cpu.entries ∨
    (∃ e byte, e.cause = .emulation byte ∧ after.cpu.entries = m.cpu.entries.push e) ∨
    ∃ e word, m.cpu.Handling e word after.cpu ∧ (word.getLsbD 0 = true ↔ m.EscapesUser) := by
  intro after
  have status := m.fetchNext_confined.2
  have entries := m.fetchNext_entries
  obtain ⟨fault, c, fetched, stopped⟩ | ⟨i, c, fetched, completed⟩ := m.executeOne_cases
  · rw [fetched] at entries
    exact .inl ((congrArg (fun r => r.2.cpu.entries) stopped).trans entries)
  rw [fetched] at status entries
  have ended : after = ((complete m.cpu.status.h).run ((execute i).run c).2).2 :=
    congrArg Prod.snd completed
  have escapes : m.EscapesUser ↔ c.cpu.Escapes i := by
    constructor
    · rintro ⟨j, d, again, escapes⟩
      cases fetched.symm.trans again
      exact escapes
    · exact fun escapes => ⟨i, c, fetched, escapes⟩
  have late := m.fetchNext_finds (Decode.decode_late _ _ _) (by rw [fetched]) i rfl
  have leaves := c.execute_leaves late ((congrArg Status.s status).trans user)
  rw [escapes, ended]
  -- What follows the effect enters at most one handler, which returns to where the effect has left off.
  cases leaves with
  | user quiet still stays =>
    obtain same | ⟨e, word, handling, bit⟩ := complete_user ((execute i).run c).2 m.cpu.status.h still
    · exact .inl (by rw [same, quiet, entries])
    · refine .inr (.inr ⟨e, word, handling.ofEntries (quiet.trans entries), ?_⟩)
      rw [bit]
      exact ⟨nofun, fun escapes => absurd escapes stays⟩
  | emulation e byte cause pushed locked untraced =>
    exact .inr (.inl ⟨e, byte, cause, by rw [complete_emulation _ locked untraced, pushed, entries]⟩)
  | handler e word handling returns =>
    have final := complete_handling m.cpu.status.h handling
    exact .inr (.inr ⟨e, word, final.ofEntries entries, returns⟩)

/-- What user code enters. An instruction cycle from user state enters one handler at most, apart from the
emulation of an instruction. The handler finds a return address with bit 0 set, and a return through it goes
to supervisor state, exactly if the instruction returns to an odd address, or advances local register 0 to one
after a signed store whose value does not fit. -/
theorem user_frame_iff (m : Machine β) (user : m.cpu.status.s = false) {e : Entry}
    (enters : e ∈ entered m (m.move .instruction)) (handled : ∀ byte, e.cause ≠ .emulation byte) :
    let after := m.move .instruction
    entered m after = [e] ∧ after.cpu.status.fp = e.frame ∧
      ((after.cpu.read ⟨.locals, 0⟩).getLsbD 0 = true ↔ m.EscapesUser) ∧
      (((execute (.ret ⟨.locals, 0⟩)).run after).2.cpu.status.s = true ↔ m.EscapesUser) := by
  intro after
  obtain quiet | ⟨e', byte, cause, pushed⟩ | ⟨e', word, handling, returns⟩ := m.instruction_leaves user
  · rw [entered_none quiet] at enters
    cases enters
  · rw [entered_push pushed] at enters
    cases List.mem_singleton.mp enters
    exact absurd cause (handled byte)
  · have one := entered_push handling.entries
    rw [one] at enters
    cases List.mem_singleton.mp enters
    rw [handling_returns handling, handling.returns]
    exact ⟨one, handling.fp, returns, returns⟩

/-- A machine on which a supervisor has just returned to user code at address 0x2000. -/
def startUser (program : List Half) (locals : List (Nat × Word)) : Machine (DeviceBus FlatMemory) :=
  (powerOn Variant.e132t.config
    ((({} : FlatMemory).loadHalves 0x1000 [0x0502]).loadHalves 0x2000 program)).session <|
    [.host .reset, .host (.setGlobal Global.pc 0x1000), .host (.setLocal 2 0x2000),
      .host (.setLocal 3 0x00400000)] ++
    locals.map (fun (code, value) => .host (.setLocal code value)) ++ [.slice 1]

/-- User code that returns to an odd address. -/
def oddReturn : Machine (DeviceBus FlatMemory) := startUser [0x0504] [(4, 0x3001), (5, 0x00400000)]

/-- User code that stores a signed byte through local register 0, which it advances to an odd address. -/
def oddStore : Machine (DeviceBus FlatMemory) := startUser [0x9f01, 4] [(0, 0x3001), (1, 0x180)]

/-- Both are in user state, and enter a handler that returns to supervisor state. -/
theorem user_escapes :
    oddReturn.cpu.status.s = false ∧
    (entered oddReturn (oddReturn.move .instruction)).map Entry.cause = [.exception .privilege] ∧
    (oddReturn.move .instruction).cpu.read ⟨.locals, 0⟩ = 0x3001 ∧
    oddStore.cpu.status.s = false ∧
    (entered oddStore (oddStore.move .instruction)).map Entry.cause = [.exception .range] ∧
    (oddStore.move .instruction).cpu.read ⟨.locals, 0⟩ = 0x3005 := by
  decide +kernel

/-- The handler that a refused move enters returns to user state. -/
theorem userMove_returns : ∃ e, entered userMove (userMove.move .instruction) = [e] ∧
    userMove.cpu.status.s = false ∧ e.cause = .exception .privilege ∧ ¬ userMove.EscapesUser := by
  have user : userMove.cpu.status.s = false := by decide +kernel
  have causes : (entered userMove (userMove.move .instruction)).map Entry.cause =
      [.exception .privilege] := by decide +kernel
  have even : ((userMove.move .instruction).cpu.read ⟨.locals, 0⟩).getLsbD 0 = false := by
    decide +kernel
  obtain ⟨e, one, cause⟩ := List.map_eq_singleton_iff.mp causes
  have enters : e ∈ entered userMove (userMove.move .instruction) := one ▸ List.mem_singleton_self e
  obtain ⟨-, -, returns, -⟩ := user_frame_iff userMove user enters (by rw [cause]; exact nofun)
  rw [even] at returns
  exact ⟨e, one, user, cause, fun escapes => Bool.false_ne_true (returns.mpr escapes)⟩

end Machine

end E1Machine
