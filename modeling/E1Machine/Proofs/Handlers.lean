import E1Machine.Bus.Flat
import E1Machine.Proofs.Moves
import E1Machine.Proofs.Recognition
import E1Machine.Proofs.Resetting

/-!
# Handlers and delayed branches

The first instruction of a handler must not be redirected to the target of a delayed branch that was
still to be followed in the interrupted program. Every instruction but the reserved ones follows a
pending branch before it executes, so neither a trap nor an exception nor an emulation is ever entered
with a target pending, and no interrupt is while the lockout of the branch holds. A reserved instruction
in the place after the branch leaves the target pending and lets the lockout run out: only then can an
interrupt be taken too early. The main result says exactly when no handler is hijacked, and that reserved
instructions are the only way.
-/

namespace E1Machine

namespace Cpu

/-! ## What is entered -/

/-- Entries that were made with no target pending. -/
def Clean (entries : List Entry) : Prop := ∀ e ∈ entries, e.target = none

/-- Whether entries are clean can be decided one by one. -/
instance (entries : List Entry) : Decidable (Clean entries) :=
  inferInstanceAs (Decidable (∀ e ∈ entries, e.target = none))

/-- Entries are clean exactly if the earlier and the later ones are. -/
lemma clean_append {before after : List Entry} :
    Clean (before ++ after) ↔ Clean before ∧ Clean after := by
  unfold Clean
  simp only [List.mem_append, or_imp, forall_and]

/-- No target is pending, and none was in any entry since. -/
def Followed (before : List Entry) (c : Cpu) : Prop :=
  c.delay.target = none ∧ ∃ new, c.entries.toList = before ++ new ∧ Clean new

/-- Once a delayed branch is followed, what is entered is entered with no target pending. -/
lemma followed_invariant (before : List Entry) : Invariant (Followed before) := by
  refine .ofChanges (fun _ _ _ _ _ _ _ _ p => p) (fun p => ⟨rfl, p.2⟩) (fun _ p => p) ?_
  rintro c _ ⟨regs, lastPc, n, e, -, -, target, rfl⟩ ⟨none, new, entered, clean⟩
  refine ⟨none, new ++ [e], ?_, ?_⟩
  · show (c.entries.push e).toList = _
    rw [Array.toList_push, entered, List.append_assoc]
  · intro d mem
    obtain old | last := List.mem_append.mp mem
    · exact clean d old
    · rw [List.mem_singleton.mp last, target]
      exact none

/-- While a target is pending, interrupts are held back. -/
def Held (c : Cpu) : Prop := c.delay.target = none ∨ 0 < c.lockout

/-- No interrupt is due while a target is pending, if interrupts are held back then. -/
lemma Held.clean {c : Cpu} (held : c.Held) (due : c.interruptDue ≠ none) :
    c.delay.target = none := by
  obtain followed | locked := held
  · exact followed
  · refine absurd ?_ due
    exact c.recognized_iff.mp (.inl locked)

/-- The tasks after an instruction enter nothing with a target pending, since no step is traced then. -/
lemma finish_entries (c : Cpu) (wasHigh : Bool) :
    (c.finish wasHigh).delay = c.delay ∧
      (c.finish wasHigh).lockout = max (c.lockout - 1) lockoutFloor ∧
      ∃ new, (c.finish wasHigh).entries.toList = c.entries.toList ++ new ∧ Clean new := by
  obtain ⟨d, eq, finished⟩ := c.finish_cases wasHigh
  obtain ⟨delay, lockout, entries⟩ :
      d.delay = c.delay ∧ d.lockout = c.lockout ∧ d.entries = c.entries := by
    rw [eq]
    exact ⟨rfl, rfl, rfl⟩
  rw [← delay, ← lockout, ← entries]
  obtain run | ⟨-, idle, run⟩ := finished
  · rw [run]
    exact ⟨rfl, rfl, [], (List.append_nil _).symm, nofun⟩
  · obtain ⟨regs, lastPc, n, e, -, -, target, raised⟩ := d.raise_enters .trace
    rw [run, raised]
    refine ⟨rfl, rfl, [e], Array.toList_push, fun last mem => ?_⟩
    rw [List.mem_singleton.mp mem, target]
    exact idle

/-- A write of a global register makes no entry and leaves a pending target and a lockout in place. -/
lemma setGlobal_kept (c : Cpu) (code : Nat) (value : Word) :
    (c.setGlobal code value).entries = c.entries ∧ (c.setGlobal code value).delay = c.delay ∧
      c.lockout ≤ (c.setGlobal code value).lockout := by
  obtain ⟨regs, timer, entry, lockout, reports, ⟨longer, -⟩, eq⟩ := c.setGlobal_changes code value
  rw [eq]
  exact ⟨rfl, rfl, longer⟩

/-- A reset forgets a pending delayed branch. -/
lemma reset_kept (c : Cpu) : c.reset.entries = c.entries ∧ c.reset.delay = {} := by
  have recovered := c.reset_recovered
  exact ⟨by rw [recovered.rest], congrArg DelaySlot.mk recovered.target⟩

end Cpu

/-- A host enters no handler, and only a reset lets a delayed branch be forgotten. -/
lemma HostAction.act_changes (action : HostAction) (c : Cpu) :
    (action.act c).entries = c.entries ∧
      ((action.act c).delay = {} ∨
        (action.act c).delay = c.delay ∧ c.lockout ≤ (action.act c).lockout) := by
  have kept := Int.le_refl c.lockout
  cases action with
  | reset => exact ⟨c.reset_kept.1, .inl c.reset_kept.2⟩
  | setInput line on =>
    unfold act Cpu.setInput
    dsimp only
    split
    · exact ⟨rfl, .inr ⟨rfl, kept⟩⟩
    · exact ⟨rfl, .inr ⟨rfl, kept⟩⟩
  | setGlobal code value =>
    obtain ⟨entries, rest⟩ := c.setGlobal_kept code value
    exact ⟨entries, .inr rest⟩
  | setLocal code value => exact ⟨rfl, .inr ⟨rfl, kept⟩⟩
  | advance cycles => exact ⟨rfl, .inr ⟨rfl, kept⟩⟩
  | timerExpired =>
    obtain ⟨regs, timer, eq⟩ := c.timerExpired_changes
    rw [show act .timerExpired c = _ from eq]
    exact ⟨rfl, .inr ⟨rfl, kept⟩⟩

namespace Instruction

/-- An instruction leaves a delayed branch, is reserved, or follows a pending branch and leaves none. -/
lemma delay_cases (i : Instruction) :
    (∃ offset, i = .delayedBranch offset) ∨ (∃ report, i = .reserved report) ∨
      (i.redirects = true ∧ i.delays = false) := by
  cases i with
  | delayedBranch offset => exact .inl ⟨offset, rfl⟩
  | reserved report => exact .inr (.inl ⟨report, rfl⟩)
  | _ => exact .inr (.inr ⟨rfl, rfl⟩)

end Instruction

namespace Machine

variable {β : Type} [Bus β]

/-- The entries into handlers that are made on the way from a machine to another. -/
def entered (m m' : Machine β) : List Entry := m'.cpu.entries.toList.drop m.cpu.entries.size

omit [Bus β] in
/-- If one entry is noted, it is the one that was made on the way. -/
lemma entered_push {m m' : Machine β} {e : Entry} (entries : m'.cpu.entries = m.cpu.entries.push e) :
    entered m m' = [e] := by
  unfold entered
  rw [entries, Array.toList_push, ← Array.length_toList, List.drop_left]

omit [Bus β] in
/-- If nothing is noted, no entry was made on the way. -/
lemma entered_none {m m' : Machine β} (entries : m'.cpu.entries = m.cpu.entries) :
    entered m m' = [] := by
  unfold entered
  rw [entries, ← Array.length_toList, List.drop_length]

/-- The processor on which a move looks for interrupts, if it does. -/
def looksOn (m : Machine β) : Move → Option Cpu
  | .openSlice budget => some (m.cpu.openSlice budget)
  | .instruction =>
    match fetchNext.run m with
    | (.error _, _) => none
    | (.ok i, c) =>
      let done := ((execute i).run c).2.cpu.finish m.cpu.status.h
      if done.lockout = 0 then some done else none
  | .host _ | .closeSlice => none

/-- A look for interrupts that finds one finds no target pending. -/
def LooksClean (look : Option Cpu) : Prop :=
  ∀ c, look = some c → c.interruptDue ≠ none → c.delay.target = none

/-- A move that makes no entry and no look for interrupts is clean. -/
lemma looksClean_none : Cpu.Clean [] ↔ LooksClean none :=
  ⟨fun _ _ eq _ => (Option.some_ne_none _ eq.symm).elim, fun _ => nofun⟩

/-- What a look for interrupts enters has no target pending exactly if the look is clean. -/
lemma checkInterrupts_entries (m : Machine β) :
    (checkInterrupts.run m).2.cpu.delay = m.cpu.delay ∧
      (checkInterrupts.run m).2.cpu.lockout = m.cpu.lockout ∧
      ∃ new, (checkInterrupts.run m).2.cpu.entries.toList = m.cpu.entries.toList ++ new ∧
        (Cpu.Clean new ↔ LooksClean (some m.cpu)) := by
  obtain ⟨due, run⟩ | ⟨source, bus, due, run⟩ := m.checkInterrupts_cases
  · rw [run]
    refine ⟨rfl, rfl, [], (List.append_nil _).symm, ⟨fun _ => ?_, fun _ => nofun⟩⟩
    rintro c eq interrupted
    cases eq
    exact absurd due interrupted
  · obtain ⟨timer, regs, lastPc, n, e, -, -, target, eq⟩ := m.cpu.takeInterrupt_enters source
    rw [run, eq]
    refine ⟨rfl, rfl, [e], Array.toList_push, ⟨fun clean => ?_, fun clean => ?_⟩⟩
    · rintro c eq -
      cases eq
      exact target.symm.trans (clean e (List.mem_singleton_self e))
    · intro d mem
      rw [List.mem_singleton.mp mem, target]
      exact clean m.cpu rfl (by rw [due]; exact Option.some_ne_none source)

/-- An instruction that follows a pending branch and leaves none enters nothing with a target pending,
and none is pending when it has been executed. -/
lemma execute_followed (m : Machine β) {i : Instruction} (redirects : i.redirects = true)
    (delays : i.delays = false) (cursor : Cursor) (bus : β) :
    Cpu.Followed m.cpu.entries.toList ((execute i).run
      ⟨if i.redirects then (m.cpu.begin.continueAt cursor).redirect
        else m.cpu.begin.continueAt cursor, bus⟩).2.cpu := by
  refine (Cpu.followed_invariant _).execute i (by rw [delays]; exact nofun) ?_
  rw [redirects, if_pos rfl, Cpu.redirect_eq]
  exact ⟨rfl, [], (List.append_nil _).symm, nofun⟩

/-- An instruction that is fetched enters nothing with a target pending. -/
lemma execute_entries {m c : Machine β} {i : Instruction} (fetched : fetchNext.run m = (.ok i, c)) :
    ∃ new, ((execute i).run c).2.cpu.entries.toList = m.cpu.entries.toList ++ new ∧
      Cpu.Clean new := by
  obtain ⟨cursor, bus, rfl⟩ := m.fetchNext_ok fetched
  obtain ⟨offset, rfl⟩ | ⟨report, rfl⟩ | ⟨redirects, delays⟩ := i.delay_cases
  · refine ⟨[], ?_, nofun⟩
    show (Cpu.redirect _).entries.toList = _
    rw [Cpu.redirect_eq, List.append_nil]
    rfl
  · exact ⟨[], (List.append_nil _).symm, nofun⟩
  · exact (m.execute_followed redirects delays cursor bus).2

/-- What a move enters: nothing with a target pending but what it looks for. -/
lemma move_entries (m : Machine β) (first : Move) :
    ∃ new, (m.move first).cpu.entries.toList = m.cpu.entries.toList ++ new ∧
      (Cpu.Clean new ↔ LooksClean (m.looksOn first)) := by
  cases first with
  | host action =>
    refine ⟨[], ?_, looksClean_none⟩
    show (action.act m.cpu).entries.toList = _
    rw [(action.act_changes m.cpu).1, List.append_nil]
  | closeSlice => exact ⟨[], (List.append_nil _).symm, looksClean_none⟩
  | openSlice budget =>
    exact (checkInterrupts_entries ⟨m.cpu.openSlice budget, m.bus⟩).2.2
  | instruction =>
    unfold move looksOn
    obtain ⟨fault, c, fetched, run⟩ | ⟨i, c, fetched, run⟩ := m.executeOne_cases
    · rw [run, fetched]
      refine ⟨[], ?_, looksClean_none⟩
      obtain ⟨fault', cursor, bus, fetch⟩ | ⟨j, cursor, bus, fetch⟩ := m.fetchNext_cases
      · cases fetched.symm.trans fetch
        exact (List.append_nil _).symm
      · cases fetched.symm.trans fetch
    · obtain ⟨executed, fromExecution, cleanExecution⟩ := execute_entries fetched
      obtain ⟨-, -, traced, fromTrace, cleanTrace⟩ :=
        ((execute i).run c).2.cpu.finish_entries m.cpu.status.h
      rw [fromExecution, List.append_assoc] at fromTrace
      -- The effect and the trace enter nothing with a target pending, which leaves the look.
      have quiet := Cpu.clean_append.mpr ⟨cleanExecution, cleanTrace⟩
      rw [run, fetched, complete_run]
      dsimp only
      split
      · obtain ⟨-, -, taken, fromLook, cleanLook⟩ := checkInterrupts_entries
          (⟨((execute i).run c).2.cpu.finish m.cpu.status.h, ((execute i).run c).2.bus⟩ : Machine β)
        refine ⟨(executed ++ traced) ++ taken, ?_, ?_⟩
        · rw [fromLook, ← List.append_assoc, ← fromTrace]
        · rw [Cpu.clean_append, cleanLook]
          exact and_iff_right quiet
      · exact ⟨executed ++ traced, fromTrace, fun _ => looksClean_none.mp nofun, fun _ => quiet⟩

/-! ## What a sequence of moves enters -/

/-- No handler is entered with the target of a delayed branch pending. -/
def NoHijack (m m' : Machine β) : Prop := Cpu.Clean (entered m m')

/-- Whether no handler is entered with a target pending can be decided by the entries and the look for interrupts.
-/
instance (m m' : Machine β) : Decidable (NoHijack m m') :=
  inferInstanceAs (Decidable (Cpu.Clean (entered m m')))

/-- Moves only add entries. -/
lemma follow_entries (moves : List Move) : ∀ m : Machine β,
    ∃ new, (m.follow moves).cpu.entries.toList = m.cpu.entries.toList ++ new ∧
      (Cpu.Clean new ↔ ∀ before first after, moves = before ++ first :: after →
        LooksClean ((m.follow before).looksOn first)) := by
  induction moves with
  | nil =>
    intro m
    refine ⟨[], (List.append_nil _).symm, fun _ before first after eq => ?_, fun _ => nofun⟩
    cases List.append_ne_nil_of_right_ne_nil before (List.cons_ne_nil first after) eq.symm
  -- The first move adds its entries before those of the rest, and its look comes before theirs.
  | cons first moves ih =>
    intro m
    obtain ⟨one, entersOne, cleanOne⟩ := m.move_entries first
    obtain ⟨rest, entersRest, cleanRest⟩ := ih (m.move first)
    refine ⟨one ++ rest, ?_, ?_⟩
    · show ((m.move first).follow moves).cpu.entries.toList = _
      rw [entersRest, entersOne, List.append_assoc]
    · rw [Cpu.clean_append, cleanOne, cleanRest]
      constructor
      · rintro ⟨looksOne, looksRest⟩ before next after eq
        cases before with
        | nil =>
          cases eq
          exact looksOne
        | cons _ before =>
          cases eq
          exact looksRest before next after rfl
      · intro looks
        refine ⟨looks [] first moves rfl, fun before next after eq => ?_⟩
        exact looks (first :: before) next after (congrArg (first :: ·) eq)

/-! ## Reserved instructions -/

/-- Whether the next instruction is reserved and finds the target of a delayed branch pending. -/
def ReservedInSlot (m : Machine β) : Prop :=
  m.cpu.delay.target ≠ none ∧ ∃ report, (fetchNext.run m).1 = .ok (.reserved report)

/-- After an instruction no target is pending, or it has just been left and the lockout holds for one
more instruction, unless the instruction is a reserved one that found it pending. -/
lemma execute_delay {m c : Machine β} {i : Instruction} (fetched : fetchNext.run m = (.ok i, c))
    (notReserved : ¬ m.ReservedInSlot) :
    ((execute i).run c).2.cpu.delay.target = none ∨ 2 ≤ ((execute i).run c).2.cpu.lockout := by
  obtain ⟨cursor, bus, rfl⟩ := m.fetchNext_ok fetched
  obtain ⟨offset, rfl⟩ | ⟨report, rfl⟩ | ⟨redirects, delays⟩ := i.delay_cases
  · -- A delayed branch blocks for two instructions, of which it is the first itself.
    exact .inr (Int.le_max_right _ _)
  · left
    by_contra pending
    exact notReserved ⟨pending, report, by rw [fetched]⟩
  · exact .inl (m.execute_followed redirects delays cursor bus).1

/-- A move keeps interrupts held back while a target is pending, and looks for none then, unless it is a
reserved instruction that finds the target pending. -/
lemma move_held (m : Machine β) (first : Move) (held : m.cpu.Held)
    (notReserved : first = .instruction → ¬ m.ReservedInSlot) :
    (m.move first).cpu.Held ∧ LooksClean (m.looksOn first) := by
  -- A look leaves the delayed branch and the lockout alone, and is clean where they are held.
  have look (d : Machine β) (held : d.cpu.Held) :
      (checkInterrupts.run d).2.cpu.Held ∧ LooksClean (some d.cpu) := by
    obtain ⟨delay, lockout, -⟩ := checkInterrupts_entries d
    constructor
    · unfold Cpu.Held
      rw [delay, lockout]
      exact held
    · rintro c eq due
      cases eq
      exact held.clean due
  have none : LooksClean none := looksClean_none.mp nofun
  cases first with
  | host action =>
    refine ⟨?_, none⟩
    obtain ⟨-, forgotten | ⟨delay, longer⟩⟩ := action.act_changes m.cpu
    · exact .inl (congrArg (·.target) forgotten)
    · exact held.imp (congrArg (·.target) delay).trans fun locked => Int.lt_of_lt_of_le locked longer
  | closeSlice => exact ⟨held, none⟩
  | openSlice budget =>
    exact look ⟨m.cpu.openSlice budget, m.bus⟩
      (held.imp id fun locked => Int.lt_of_lt_of_le locked (Int.le_max_left _ _))
  | instruction =>
    unfold move looksOn
    obtain ⟨fault, c, fetched, run⟩ | ⟨i, c, fetched, run⟩ := m.executeOne_cases
    · rw [run, fetched]
      refine ⟨?_, none⟩
      obtain ⟨fault', cursor, bus, fetch⟩ | ⟨j, cursor, bus, fetch⟩ := m.fetchNext_cases
      · cases fetched.symm.trans fetch
        exact held
      · cases fetched.symm.trans fetch
    · obtain ⟨delay, lockout, -⟩ := ((execute i).run c).2.cpu.finish_entries m.cpu.status.h
      have done : (((execute i).run c).2.cpu.finish m.cpu.status.h).Held := by
        unfold Cpu.Held
        rw [delay, lockout]
        obtain followed | left := execute_delay fetched (notReserved rfl)
        · exact .inl followed
        · exact .inr (by omega)
      rw [run, fetched, complete_run]
      dsimp only
      split
      · exact look ⟨_, _⟩ done
      · exact ⟨done, none⟩

/-- Without reserved instructions that find a target pending, every look for interrupts is clean. -/
lemma follow_held (moves : List Move) : ∀ m : Machine β, m.cpu.Held →
    (∀ before after, moves = before ++ .instruction :: after →
      ¬ (m.follow before).ReservedInSlot) →
    ∀ before first after, moves = before ++ first :: after →
      LooksClean ((m.follow before).looksOn first) := by
  -- The invariant is that interrupts are held back while a target is pending.
  induction moves with
  | nil =>
    intro m _ _ before first after eq
    cases List.append_ne_nil_of_right_ne_nil before (List.cons_ne_nil first after) eq.symm
  | cons first moves ih =>
    intro m held notReserved before next after eq
    obtain ⟨heldNext, clean⟩ := m.move_held first held fun eq => by
      cases eq
      exact notReserved [] moves rfl
    cases before with
    | nil =>
      cases eq
      exact clean
    | cons _ before =>
      cases eq
      refine ih (m.move first) heldNext (fun before' after' eq => ?_) before next after rfl
      exact notReserved (first :: before') after' (congrArg (first :: ·) eq)

/-- When no handler is hijacked, in any sequence of moves that starts with a reset: exactly if every look
for interrupts that finds one finds no target of a delayed branch pending, and in particular if no
reserved instruction is run while one is. -/
theorem no_hijack_iff (m : Machine β) (moves : List Move) :
    let start := m.move (.host .reset)
    (NoHijack start (start.follow moves) ↔
      ∀ before first after, moves = before ++ first :: after →
        LooksClean ((start.follow before).looksOn first)) ∧
    ((∀ before after, moves = before ++ .instruction :: after →
        ¬ (start.follow before).ReservedInSlot) →
      NoHijack start (start.follow moves)) := by
  intro start
  have exactly : NoHijack start (start.follow moves) ↔
      ∀ before first after, moves = before ++ first :: after →
        LooksClean ((start.follow before).looksOn first) := by
    obtain ⟨new, enters, clean⟩ := follow_entries moves start
    rw [← clean]
    unfold NoHijack entered
    rw [enters, ← Array.length_toList, List.drop_left]
  refine ⟨exactly, fun notReserved => exactly.mpr ?_⟩
  have held : start.cpu.Held := .inl (congrArg (·.target) m.cpu.reset_kept.2)
  exact follow_held moves start held notReserved

/-- A program that enables the first line and branches with delay to address 34, with a reserved
instruction in the place after the branch. The handler of the line clears a register. -/
def reservedProgram : FlatMemory :=
  ((({} : FlatMemory).loadHalves 0xfffffff8 [0x7914, 0x64a0, 0x7512, 0x8000]).loadHalves 0
    [0xec20, 0xac00]).loadHalves 0xffffffd4 [0x6440]

/-- A host that drives the first line when the reserved instruction has been stepped over. -/
def lineAfterReserved : List Call :=
  List.replicate 5 (.slice 1) ++ [.host (.setInput 0 true), .slice 1]

/-- The handler of the line is hijacked: its first instruction continues at the target of the branch. -/
theorem hijacked_after_reserved :
    let start := (powerOn Variant.e132t.config reservedProgram).move (.host .reset)
    ¬ NoHijack start (start.session lineAfterReserved) ∧
      (start.session lineAfterReserved).cpu.regs.pc = 34 := by
  decide +kernel

end Machine

end E1Machine
