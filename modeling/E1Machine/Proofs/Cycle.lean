import E1Machine.Proofs.Changes
import E1Machine.Proofs.Fetching

/-!
# Invariants of the instruction cycle

An invariant of the elementary steps that also survives what comes after an instruction lasts through
whole instruction cycles (`Cpu.Lasting`). The first uses are the accounts: what is spent of a slice and
what is left of it always add up to the same number, an instruction cycle that completes spends at least
one cycle, and it does not latch a fault.
-/

namespace E1Machine

namespace Machine

variable {β : Type} [Bus β]

/-- What a look for interrupts does with the one that is due. -/
lemma checkInterrupts_eq (m : Machine β) :
    checkInterrupts.run m =
      (match m.cpu.interruptDue with
        | none => pure ()
        | some source => modifyCpu (·.takeInterrupt source) >>= fun _ =>
          match source with
          | .timer => pure ()
          | .line line => onBus (Bus.acknowledge line) : Exec β Unit).run m := rfl

/-- Looking for an interrupt changes nothing, or takes the one that is due. -/
lemma checkInterrupts_cases (m : Machine β) :
    (m.cpu.interruptDue = none ∧ checkInterrupts.run m = ((), m)) ∨
    (∃ source bus, m.cpu.interruptDue = some source ∧
      checkInterrupts.run m = ((), ⟨m.cpu.takeInterrupt source, bus⟩)) := by
  have check := m.checkInterrupts_eq
  cases due : m.cpu.interruptDue with
  | none =>
    rw [due] at check
    exact .inl ⟨rfl, check⟩
  | some source =>
    rw [due] at check
    cases source with
    | timer => exact .inr ⟨_, _, rfl, check⟩
    | line line => exact .inr ⟨_, _, rfl, check⟩

/-- Completing an instruction finishes it and looks for an interrupt if the lockout has run out. -/
lemma complete_run (wasHigh : Bool) (m : Machine β) :
    (complete wasHigh).run m =
      if (m.cpu.finish wasHigh).lockout = 0 then
        checkInterrupts.run ⟨m.cpu.finish wasHigh, m.bus⟩
      else ((), ⟨m.cpu.finish wasHigh, m.bus⟩) := by
  have run : (complete wasHigh).run m =
      (if (m.cpu.finish wasHigh).lockout = 0 then checkInterrupts else pure () : Exec β Unit).run
        ⟨m.cpu.finish wasHigh, m.bus⟩ := rfl
  rw [run]
  split <;> rfl

/-- Completing an instruction finishes it, and may then take the interrupt that is due. -/
lemma complete_cpu (wasHigh : Bool) (m : Machine β) :
    ((complete wasHigh).run m).2.cpu = m.cpu.finish wasHigh ∨
    ∃ source, (m.cpu.finish wasHigh).interruptDue = some source ∧
      ((complete wasHigh).run m).2.cpu = (m.cpu.finish wasHigh).takeInterrupt source := by
  rw [complete_run]
  split
  · obtain ⟨-, run⟩ | ⟨source, bus, due, run⟩ :=
      checkInterrupts_cases (⟨m.cpu.finish wasHigh, m.bus⟩ : Machine β)
    · rw [run]
      exact .inl rfl
    · rw [run]
      exact .inr ⟨source, due, rfl⟩
  · exact .inl rfl

end Machine

namespace Cpu

/-- An invariant survives the fetch of an instruction. -/
lemma Invariant.fetchNext {β : Type} [Bus β] {P : Cpu → Prop} (h : Invariant P) {m : Machine β}
    (p : P m.cpu) : P (Machine.fetchNext.run m).2.cpu :=
  (Machine.fetchNext_related (β := β) .refl h.congruence (m := m) ⟨rfl, p⟩ rfl).2.1.2

/-- An invariant survives an instruction that leaves no delayed branch, whatever the bus answers. -/
lemma Invariant.execute {β : Type} [Bus β] {P : Cpu → Prop} (h : Invariant P) (i : Instruction)
    (delay : i.delays → ∀ {c : Cpu} (target : Word), P c → P (c.delayTo target))
    {m : Machine β} (p : P m.cpu) : P ((Machine.execute i).run m).2.cpu := by
  -- Two equal processors with the invariant are related, and run the instruction side by side.
  have kept : i.delays → KeepsDelay fun c d => c = d ∧ P c := by
    rintro delays c _ target ⟨rfl, p⟩
    exact ⟨rfl, delay delays target p⟩
  have related := Machine.execute_related (β := β) .refl h.congruence.charging i
    (fun _ => h.keepsTicks) kept
  exact (related (m := m) ⟨rfl, p⟩ rfl).2.1.2

/-- The tasks after an instruction consume the high flag and note the length. Then a single step may be trapped,
which none is while a target is pending, and the instruction is counted. -/
lemma finish_cases (c : Cpu) (wasHigh : Bool) : ∃ d : Cpu,
    d = (c.modifyStatus fun s => { s with h := s.h ^^ wasHigh }).noteLength c.length ∧
    (c.finish wasHigh = d.retire ∨
      d.status.t = true ∧ d.delay.target = none ∧ c.finish wasHigh = (d.raise .trace).retire) := by
  refine ⟨_, rfl, ?_⟩
  unfold finish raiseIf
  dsimp only
  split
  · next traced =>
    rw [Bool.and_eq_true, Bool.and_eq_true] at traced
    obtain ⟨⟨enabled, -⟩, free⟩ := traced
    exact .inr ⟨enabled, by simpa [DelaySlot.isPending] using free, rfl⟩
  · exact .inl rfl

/-- An invariant that every part of an instruction cycle keeps, except the stop with a fault. -/
structure Lasting (P : Cpu → Prop) : Prop extends Invariant P where
  delayTo {c : Cpu} (target : Word) : P c → P (c.delayTo target)
  setHigh {c : Cpu} (high : Bool) : P c → P (c.modifyStatus fun s => { s with h := high })
  retire {c : Cpu} : P c → P c.retire
  takeInterrupt {c : Cpu} (source : InterruptSource) : P c → P (c.takeInterrupt source)

namespace Lasting

variable {β : Type} [Bus β] {P : Cpu → Prop} (h : Lasting P)
include h

/-- A lasting property survives a look for interrupts, whether or not one is taken. -/
lemma checkInterrupts {m : Machine β} (p : P m.cpu) :
    P (Machine.checkInterrupts.run m).2.cpu := by
  obtain ⟨-, run⟩ | ⟨source, bus, -, run⟩ := m.checkInterrupts_cases
  · rw [run]
    exact p
  · rw [run]
    exact h.takeInterrupt source p

/-- A lasting property survives what a processor does after an instruction. -/
lemma finish {c : Cpu} (wasHigh : Bool) (p : P c) : P (c.finish wasHigh) := by
  obtain ⟨d, eq, finished⟩ := c.finish_cases wasHigh
  have noted : P d := by
    rw [eq]
    exact h.modifyStatus (fun _ => rfl) (h.setHigh (c.status.h ^^ wasHigh) p)
  obtain run | ⟨-, -, run⟩ := finished
  · rw [run]
    exact h.retire noted
  · rw [run]
    exact h.retire (h.raise .trace noted)

/-- A lasting property survives all tasks after an instruction. -/
lemma complete {m : Machine β} (wasHigh : Bool) (p : P m.cpu) :
    P ((Machine.complete wasHigh).run m).2.cpu := by
  rw [Machine.complete_run]
  split
  · exact h.checkInterrupts (h.finish wasHigh p)
  · exact h.finish wasHigh p

/-- A lasting invariant survives an instruction cycle that completes. -/
lemma executeOne {b b' : Machine β} (run : Machine.executeOne.run b = (.ok (), b'))
    (p : P b.cpu) : P b'.cpu := by
  obtain ⟨fault, c, -, stopped⟩ | ⟨i, c, fetched, completed⟩ := b.executeOne_cases
  · rw [run] at stopped
    cases stopped
  · have next := h.fetchNext p
    rw [fetched] at next
    rw [run] at completed
    cases completed
    exact h.complete _ (h.execute i (fun _ => h.delayTo) next)

/-- A lasting invariant that a stop keeps survives every instruction cycle. -/
lemma executeOne_stop (stop : ∀ {c : Cpu} (fault : Fault), P c → P (c.stop fault))
    {b : Machine β} (p : P b.cpu) : P (Machine.executeOne.run b).2.cpu := by
  obtain ⟨fault, c, fetched, stopped⟩ | ⟨i, c, -, completed⟩ := b.executeOne_cases
  · have next := h.fetchNext p
    rw [fetched] at next
    rw [stopped]
    exact stop fault next
  · rw [completed]
    exact h.executeOne completed p

end Lasting

/-- A property that looks at neither registers nor timer lasts if it survives the changes listed in
`Invariant.ofChanges` and the count of an instruction. -/
lemma Lasting.ofChanges {P : Cpu → Prop}
    (quiet : ∀ {c : Cpu} (regs : Registers) (timer : Timer) (entry : TrapEntry) (delay : DelaySlot)
      (lastPc : Word) (length : Nat) (lockout : Int) (retired : Nat) (reports : Array Diagnostic),
      P c → P { c with
        regs := regs, timer := timer, entry := entry, delay := delay, lastPc := lastPc,
        length := length, lockout := lockout, retired := retired, reports := reports })
    (spend : ∀ {c : Cpu} (n : Nat), P c → P (c.spend n))
    (enters : ∀ {c d : Cpu}, Enters c d → P c → P d) : Lasting P where
  toInvariant := .ofChanges (fun _ _ _ _ _ _ _ _ => quiet _ _ _ _ _ _ _ _ _)
    (quiet _ _ _ _ _ _ _ _ _) spend enters
  delayTo _ := quiet _ _ _ _ _ _ _ _ _
  setHigh _ := quiet _ _ _ _ _ _ _ _ _
  retire := quiet _ _ _ _ _ _ _ _ _
  takeInterrupt {c} source p := by
    obtain ⟨timer, entered⟩ := c.takeInterrupt_enters source
    exact enters entered (quiet _ timer _ _ _ _ _ _ _ p)

/-! ## Accounts -/

/-- What is spent and what is left of the slice. -/
def account (c : Cpu) : Int := c.cycles + c.remaining

/-- Spending moves cycles from what is left to what is spent. -/
lemma account_lasting (total : Int) : Lasting fun c => c.account = total := by
  refine .ofChanges (fun _ _ _ _ _ _ _ _ _ p => p) ?_ ?_
  · intro c n p
    simp only [account, spend] at p ⊢
    omega
  · rintro c _ ⟨regs, lastPc, n, e, -, -, -, rfl⟩ p
    simp only [account] at p ⊢
    omega

/-- Cycles that are spent stay spent. -/
lemma spent_lasting (least : Nat) : Lasting fun c => least ≤ c.cycles := by
  refine .ofChanges (fun _ _ _ _ _ _ _ _ _ p => p) ?_ ?_
  · exact fun n p => Nat.le_add_right_of_le p
  · rintro c _ ⟨regs, lastPc, n, e, -, -, -, rfl⟩ p
    exact Nat.le_add_right_of_le p

/-- Only a stop latches a fault. -/
lemma fault_lasting (fault : Option Fault) : Lasting fun c => c.fault = fault := by
  refine .ofChanges (fun _ _ _ _ _ _ _ _ _ p => p) (fun _ p => p) ?_
  rintro c _ ⟨regs, lastPc, n, e, -, -, -, rfl⟩ p
  exact p

/-- Instructions are counted when they complete. -/
lemma retired_invariant (count : Nat) : Invariant fun c => c.retired = count := by
  refine .ofChanges (fun _ _ _ _ _ _ _ _ p => p) (fun p => p) (fun _ p => p) ?_
  rintro c _ ⟨regs, lastPc, n, e, -, -, -, rfl⟩ p
  exact p

/-- The tasks after an instruction count it. -/
lemma finish_retired (c : Cpu) (wasHigh : Bool) : (c.finish wasHigh).retired = c.retired + 1 := by
  obtain ⟨d, eq, finished⟩ := c.finish_cases wasHigh
  have same : d.retired = c.retired := by
    rw [eq]
    rfl
  rw [← same]
  obtain run | ⟨-, -, run⟩ := finished
  · rw [run]
    rfl
  · rw [run]
    exact congrArg (· + 1) ((retired_invariant _).raise .trace rfl)

/-- Every instruction is charged. -/
lemma spent_charging (least : Nat) :
    Charging (fun c d => c = d ∧ least ≤ c.cycles) (fun c d => c = d ∧ least < c.cycles) where
  before := (spent_lasting least).congruence
  after := (spent_lasting (least + 1)).congruence
  spend := by
    rintro c _ n positive ⟨rfl, p⟩
    exact ⟨rfl, Nat.lt_of_le_of_lt p (Nat.lt_add_of_pos_right positive)⟩
  enterEmulation := by
    rintro c _ byte dst src ⟨rfl, p⟩
    obtain ⟨regs, lastPc, n, e, positive, -, -, eq⟩ := c.enterEmulation_enters byte dst src
    refine ⟨rfl, ?_⟩
    rw [eq]
    show least < c.cycles + n
    omega

end Cpu

namespace Machine

variable {β : Type} [Bus β]

/-- An instruction cycle moves cycles from what is left of the slice to what is spent. -/
theorem executeOne_account (b : Machine β) :
    (executeOne.run b).2.cpu.account = b.cpu.account :=
  (Cpu.account_lasting _).executeOne_stop (fun _ p => p) rfl

/-- An instruction cycle that completes spends at least one cycle. -/
theorem executeOne_spends {b b' : Machine β} (run : executeOne.run b = (.ok (), b')) :
    b.cpu.cycles < b'.cpu.cycles := by
  obtain ⟨fault, c, -, stopped⟩ | ⟨i, c, fetched, completed⟩ := b.executeOne_cases
  · rw [run] at stopped
    cases stopped
  · have fetching : b.cpu.cycles ≤ c.cpu.cycles := by
      have next := (Cpu.spent_lasting b.cpu.cycles).fetchNext (m := b) (Nat.le_refl _)
      rw [fetched] at next
      exact next
    -- The effect of every instruction charges it, which makes the bound strict.
    have executing : c.cpu.cycles < ((execute i).run c).2.cpu.cycles := by
      have related := execute_related (β := β) .refl (Cpu.spent_charging c.cpu.cycles) i
        (fun _ => (Cpu.spent_lasting c.cpu.cycles).keepsTicks) ?_
      · exact (related (m := c) ⟨rfl, Nat.le_refl _⟩ rfl).2.1.2
      · rintro - d _ target ⟨rfl, p⟩
        exact ⟨rfl, p⟩
    rw [run] at completed
    cases completed
    exact (Cpu.spent_lasting (b.cpu.cycles + 1)).complete _ (Nat.lt_of_le_of_lt fetching executing)

/-- A look for interrupts counts no instruction. -/
lemma checkInterrupts_retired (m : Machine β) :
    (checkInterrupts.run m).2.cpu.retired = m.cpu.retired := by
  obtain ⟨-, run⟩ | ⟨source, bus, -, run⟩ := m.checkInterrupts_cases
  · rw [run]
  · obtain ⟨timer, regs, lastPc, n, e, -, -, -, eq⟩ := m.cpu.takeInterrupt_enters source
    rw [run, eq]

/-- An instruction cycle that completes counts one instruction. -/
theorem executeOne_retires {b b' : Machine β} (run : executeOne.run b = (.ok (), b')) :
    b'.cpu.retired = b.cpu.retired + 1 := by
  obtain ⟨fault, c, -, stopped⟩ | ⟨i, c, fetched, completed⟩ := b.executeOne_cases
  · rw [run] at stopped
    cases stopped
  · have executed : ((execute i).run c).2.cpu.retired = b.cpu.retired := by
      have next := (Cpu.retired_invariant _).fetchNext (m := b) rfl
      rw [fetched] at next
      exact (Cpu.retired_invariant _).execute i (fun _ _ _ p => p) next
    rw [run] at completed
    cases completed
    rw [← executed, complete_run]
    split
    · exact (checkInterrupts_retired _).trans (Cpu.finish_retired _ _)
    · exact Cpu.finish_retired _ _

/-- An instruction cycle that stops counts none. -/
lemma executeOne_stops {b e : Machine β} {fault : Fault} (run : executeOne.run b = (.error fault, e)) :
    e.cpu.retired = b.cpu.retired := by
  obtain ⟨fault', c, fetched, stopped⟩ | ⟨i, c, -, completed⟩ := b.executeOne_cases
  · cases run.symm.trans stopped
    have next := (Cpu.retired_invariant _).fetchNext (m := b) rfl
    rw [fetched] at next
    exact next
  · cases run.symm.trans completed

end Machine

end E1Machine
