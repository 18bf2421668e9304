import E1Machine.Bus.Flat
import E1Machine.Proofs.Recognition
import E1Machine.Proofs.Runs
import E1Machine.Proofs.Tally

/-!
# The accounts of a run

A run ends: every instruction spends a cycle, so every slice uses up its budget and every round of a run
brings it closer to its last cycle. It ends late by what the last slice is overdrawn. The worst that can
happen there is a last cycle that is left to an instruction which follows an interrupt, is a division that
raises a range error, or is one that another interrupt follows; each entry takes two clocks more.

Main statement: `Machine.run_accounts`.
-/

namespace E1Machine

namespace Cpu

variable (mask : Word)

/-- Retiring an instruction keeps the status register. -/
lemma retire_status (c : Cpu) : c.retire.status = c.status := rfl

/-- The tasks after an instruction cost nothing, or the entry of the trace handler, which locks
interrupts. -/
lemma finish_costs (c : Cpu) (wasHigh : Bool) :
    Costs mask 0 c (c.finish wasHigh) ∧ (c.finish wasHigh).status.l = c.status.l ∨
      c.status.t = true ∧ Costs mask 2 c (c.finish wasHigh) ∧ (c.finish wasHigh).status.l = true := by
  obtain ⟨d, eq, finished⟩ := c.finish_cases wasHigh
  have noted : Tally mask 0 [] c d := by
    rw [eq]
    exact (Tally.refl.flags _).noteLength _
  obtain ⟨lock, trace⟩ : d.status.l = c.status.l ∧ d.status.t = c.status.t := by
    rw [eq]
    exact ⟨rfl, rfl⟩
  obtain run | ⟨traced, -, run⟩ := finished
  · rw [run]
    exact .inl ⟨noted.toCosts.quiet rfl rfl, lock⟩
  · rw [run, retire_status]
    exact .inr ⟨trace.symm.trans traced, (noted.raise .trace).toCosts.quiet rfl rfl,
      (d.raise_status .trace).1⟩

/-- Taking an interrupt costs the two clocks of its entry. -/
lemma takeInterrupt_costs (c : Cpu) (source : InterruptSource) :
    Costs mask 2 c (c.takeInterrupt source) := by
  obtain ⟨pending, eq⟩ : ∃ pending, c.takeInterrupt source =
      enterInterrupt { c with timer := { c.timer with pending := pending } } source := by
    cases source with
    | timer => exact ⟨false, rfl⟩
    | line => exact ⟨c.timer.pending, rfl⟩
  have answered : Tally mask 0 [] c { c with timer := { c.timer with pending := pending } } :=
    ⟨⟨id, fun _ => Nat.le_add_right _ _⟩, Int.le_refl _, nofun⟩
  rw [eq]
  exact (answered.enterFrame _ _ _).toCosts

end Cpu

namespace Machine

variable {β : Type} [Bus β] (mask : Word)

/-! ## What an instruction cycle costs -/

/-- A look for interrupts costs two clocks at most, those of an entry. -/
lemma checkInterrupts_costs (m : Machine β) :
    Cpu.Costs mask 2 m.cpu (checkInterrupts.run m).2.cpu := by
  obtain ⟨-, run⟩ | ⟨source, bus, -, run⟩ := m.checkInterrupts_cases
  · rw [run]
    exact Cpu.Costs.refl.weaken (Nat.zero_le 2)
  · rw [run]
    exact m.cpu.takeInterrupt_costs mask source

/-- Completing an instruction costs at most one entry: of the trace handler, or of an interrupt. -/
lemma complete_costs (m : Machine β) (wasHigh : Bool) :
    Cpu.Costs mask 2 m.cpu ((complete wasHigh).run m).2.cpu := by
  rw [complete_run]
  obtain ⟨costs, -⟩ | ⟨-, costs, locked⟩ := m.cpu.finish_costs mask wasHigh
  · split
    · exact costs.trans (checkInterrupts_costs mask ⟨m.cpu.finish wasHigh, m.bus⟩)
    · exact costs.weaken (Nat.zero_le 2)
  -- The trace handler starts with interrupts locked.
  · rw [checkInterrupts_unchanged (m := ⟨m.cpu.finish wasHigh, m.bus⟩) (.inr (.inl locked)),
      ite_self]
    exact costs

/-- With interrupts locked and nothing to trace it costs nothing. -/
lemma complete_locked {m : Machine β} (wasHigh : Bool) (locked : m.cpu.status.l = true)
    (untraced : m.cpu.status.t = false) :
    Cpu.Costs mask 0 m.cpu ((complete wasHigh).run m).2.cpu := by
  obtain ⟨costs, same⟩ | ⟨traced, -⟩ := m.cpu.finish_costs mask wasHigh
  · have locked : (m.cpu.finish wasHigh).status.l = true := same.trans locked
    rw [complete_run, checkInterrupts_unchanged (m := ⟨m.cpu.finish wasHigh, m.bus⟩)
      (.inr (.inl locked)), ite_self]
    exact costs
  · cases untraced.symm.trans traced

/-- Fetching an instruction costs nothing. -/
lemma fetchNext_costs (b : Machine β) : Cpu.Costs mask 0 b.cpu (fetchNext.run b).2.cpu := by
  obtain ⟨fault, cursor, bus, run⟩ | ⟨i, cursor, bus, run⟩ := b.fetchNext_cases
  · rw [run]
    exact Cpu.Costs.refl.quiet rfl rfl
  · rw [run, Cpu.redirect_eq]
    dsimp only
    split <;> exact Cpu.Costs.refl.quiet rfl rfl

/-- No instruction cycle costs more than a division and one entry. -/
theorem executeOne_costs {b b' : Machine β} (run : executeOne.run b = (.ok (), b')) :
    Cpu.Costs mask 38 b.cpu b'.cpu := by
  obtain ⟨fault, c, -, stopped⟩ | ⟨i, c, fetched, completed⟩ := b.executeOne_cases
  · cases run.symm.trans stopped
  · cases run.symm.trans completed
    have fetching := b.fetchNext_costs mask
    rw [fetched] at fetching
    obtain tally | ⟨tally, locked, untraced⟩ := c.execute_tally mask i
    · exact (fetching.trans tally.toCosts).trans (complete_costs mask _ _)
    -- A division that has entered the range error leaves no room for a second entry.
    · exact (fetching.trans tally.toCosts).trans (complete_locked mask _ locked untraced)

/-! ## Slices -/

/-- Steps that are made one after another come to an end. -/
def Halts (next : Machine β → Machine β → Prop) (m : Machine β) : Prop :=
  ∃ last, Relation.ReflTransGen next m last ∧ ∀ m', ¬ next last m'

variable {mask} {stop cycles : Nat} {m r r' s b e : Machine β}

/-- At a boundary a slice is overdrawn by nothing but the interrupt with which it started. -/
lemma Visits.overdraft (visits : Visits cycles m b) (positive : cycles ≠ 0)
    (scaled : m.cpu.Scaled mask) : b.cpu.overdraft ≤ 2 * Cpu.slowestClock mask := by
  cases visits with
  | refl =>
    have budget : (m.cpu.openSlice (min cycles Cpu.maxBudget)).overdraft = 0 := by
      show (1 - ((min cycles Cpu.maxBudget : Nat) : Int)).toNat = 0
      have : 0 < Cpu.maxBudget := by decide
      omega
    have looked := (checkInterrupts_costs mask
      ⟨m.cpu.openSlice (min cycles Cpu.maxBudget), m.bus⟩).drawn scaled
    rw [budget, Nat.zero_add] at looked
    exact looked
  | tail _ next =>
    have left := next.2
    unfold Cpu.overdraft
    omega

/-- A slice with a positive budget comes to an end, since every instruction spends some of it. -/
lemma slice_halts (running : m.cpu.fault = none) (positive : cycles ≠ 0) :
    Halts Continues (opened cycles m) := by
  obtain ⟨last, result, e, visits, run, exhausted, -⟩ := slice_ends running positive
  refine ⟨last, visits, ?_⟩
  rintro next ⟨ran, left⟩
  cases run.symm.trans ran
  exact absurd left (Int.not_lt.mpr (exhausted rfl))

/-! ## Rounds of a run -/

/-- No slice of a run is cut beyond its last cycle. -/
lemma Cuts.budget_le (cuts : Cuts stop m s) : s.cpu.cycles + s.cpu.sliceBudget stop ≤ stop := by
  obtain ⟨r, -, before, rfl⟩ := cuts
  rw [← r.served_kept.1] at before
  unfold Cpu.sliceBudget
  split
  · split <;> omega
  · omega

/-- A round that goes on ends with an instruction that completes, after which more cycles are spent. -/
lemma Turns.completes (turns : Turns stop r r') :
    r'.cpu.fault = none ∧ r.cpu.cycles < r'.cpu.cycles ∧
      ∃ b e, Instructs stop r r.served b ∧ executeOne.run b = (.ok (), e) ∧
        r' = ⟨e.cpu.closeSlice, e.bus⟩ := by
  obtain ⟨before, n, sliced⟩ := turns
  cases running : r.cpu.fault with
  | some fault =>
    have stopped := slice_stopped (r.served_kept.2.1.trans running) (r.served.cpu.sliceBudget stop)
    cases sliced.symm.trans stopped
  | none =>
    obtain ⟨b, result, e, instructs, run, progress, ends⟩ := cut_ends .refl before running
    cases result with
    | error fault => cases sliced.symm.trans ends
    | ok =>
      cases sliced.symm.trans ends
      obtain ⟨later, quiet⟩ := progress rfl
      exact ⟨quiet, later, b, e, instructs, run, rfl⟩

/-- The rounds of a run come to an end, since each of them spends a cycle. -/
lemma rounds_halt (stop : Nat) (m : Machine β) : Halts (Turns stop) m := by
  induction left : stop - m.cpu.cycles using Nat.strongRecOn generalizing m with
  | _ _ ih =>
    by_cases more : ∃ next, Turns stop m next
    · obtain ⟨next, turns⟩ := more
      have before := turns.1
      obtain ⟨-, later, -⟩ := turns.completes
      obtain ⟨last, rounds, ended⟩ := ih (stop - next.cpu.cycles) (by omega) next rfl
      exact ⟨last, .head turns rounds, ended⟩
    · exact ⟨m, .refl, fun next turns => more ⟨next, turns⟩⟩

/-- A round of a run is a sequence of moves. -/
lemma Turns.reaches (turns : Turns stop r r') : Reaches r r' := by
  obtain ⟨-, n, sliced⟩ := turns
  have cutting := slice_reaches r.served (r.served.cpu.sliceBudget stop)
  unfold cut at sliced
  rw [sliced] at cutting
  exact r.serviceTimer_reaches.trans cutting

/-- The rounds of a run are a sequence of moves. -/
lemma rounds_reach (rounds : Relation.ReflTransGen (Turns stop) m r) : Reaches m r := by
  induction rounds with
  | refl => exact .refl m
  | tail _ turns ih => exact ih.trans turns.reaches

/-- The boundaries of a run, and the starts of the slices in which they lie, are reached by moves. -/
lemma Instructs.reaches (instructs : Instructs stop m s b) : Reaches m s ∧ Reaches s b := by
  obtain ⟨⟨r, rounds, -, rfl⟩, -, visits⟩ := instructs
  exact ⟨(rounds_reach rounds).trans r.serviceTimer_reaches, visits.reaches⟩

/-- Serving the timer and cutting a slice latches no fault. -/
lemma Cuts.running (cuts : Cuts stop m s) (running : m.cpu.fault = none) : s.cpu.fault = none := by
  obtain ⟨r, rounds, -, rfl⟩ := cuts
  rw [r.served_kept.2.1]
  induction rounds with
  | refl => exact running
  | tail _ turns _ => exact turns.completes.1

/-- An instruction of a run ends before the last cycle, or late by what the last slice is overdrawn. -/
lemma Instructs.late (instructs : Instructs stop m s b) (run : executeOne.run b = (.ok (), e))
    (scaled : m.cpu.Scaled mask) : e.cpu.cycles < stop + 40 * Cpu.slowestClock mask := by
  obtain ⟨toSlice, toBoundary⟩ := instructs.reaches
  obtain ⟨cuts, -, visits⟩ := instructs
  have scaledSlice := scaled.reaches toSlice
  have before := visits.overdraft cuts.budget_pos scaledSlice
  have after := (executeOne_costs mask run).drawn (scaledSlice.reaches toBoundary)
  have within := cuts.budget_le
  -- What is spent and what is left of the slice add up to what it started with.
  have account : e.cpu.account = _ := (Cpu.account_lasting _).executeOne run
    (Continues.lasting (Cpu.account_lasting _) visits (opened_account _ s))
  unfold Cpu.account at account
  unfold Cpu.overdraft at before after
  omega

/-! ## Counting instructions -/

/-- Instructions are counted no faster than cycles. -/
structure Paced (m m' : Machine β) : Prop where
  counted : m.cpu.retired ≤ m'.cpu.retired
  slower : m'.cpu.retired + m.cpu.cycles ≤ m.cpu.retired + m'.cpu.cycles

omit [Bus β] in
/-- A machine is paced against itself. -/
lemma Paced.refl (m : Machine β) : Paced m m := ⟨Nat.le_refl _, Nat.le_refl _⟩

omit [Bus β] in
/-- Two stretches that are both paced are paced together. -/
lemma Paced.trans (first : Paced m r) (second : Paced r s) : Paced m s where
  counted := Nat.le_trans first.counted second.counted
  slower := by
    have := first.slower
    have := second.slower
    omega

omit [Bus β] in
/-- Cycles are never taken back where instructions are counted no faster than they pass. -/
lemma Paced.advances (paced : Paced m m') : m.cpu.cycles ≤ m'.cpu.cycles := by
  have counted := paced.counted
  have slower := paced.slower
  omega

/-- An instruction is counted once and spends at least one cycle. -/
lemma executeOne_paced (run : executeOne.run b = (.ok (), e)) : Paced b e := by
  have spends := executeOne_spends run
  have retires := executeOne_retires run
  constructor <;> omega

/-- The start of a slice may spend cycles on an entry and counts no instruction. -/
lemma opened_paced (cycles : Nat) (m : Machine β) : Paced m (opened cycles m) := by
  have spent := opened_spent cycles m
  have retired : (opened cycles m).cpu.retired = m.cpu.retired := checkInterrupts_retired _
  constructor <;> omega

/-- Up to every boundary of a slice instructions are counted no faster than cycles. -/
lemma Visits.paced (visits : Visits cycles m b) : Paced m b := by
  induction visits with
  | refl => exact opened_paced cycles m
  | tail _ next ih => exact ih.trans (executeOne_paced next.1)

/-- So are those of a slice, and also if a fault stops it. -/
lemma slice_paced (m : Machine β) (cycles : Nat) : Paced m ((slice cycles).run m).2 := by
  cases running : m.cpu.fault with
  | some fault =>
    rw [slice_stopped running]
    exact .refl m
  | none =>
    by_cases zero : cycles = 0
    · subst zero
      rw [slice_zero running]
      exact .refl m
    · obtain ⟨last, result, e, visits, run, -, ends⟩ := slice_ends running zero
      have finished : Paced last e := by
        cases result with
        -- A fault spends no less than nothing and counts no instruction.
        | error fault =>
          have counted := executeOne_stops run
          have spent : last.cpu.cycles ≤ (executeOne.run last).2.cpu.cycles :=
            (Cpu.spent_lasting _).executeOne_stop (fun _ p => p) (Nat.le_refl _)
          rw [run] at spent
          dsimp only at spent
          constructor <;> omega
        | ok => exact executeOne_paced run
      have whole := visits.paced.trans finished
      rw [ends]
      exact ⟨whole.counted, whole.slower⟩

omit [Bus β] in
/-- Serving the timer spends nothing and counts nothing. -/
lemma served_paced (m : Machine β) : Paced m m.served := by
  obtain ⟨cycles, -, retired⟩ := m.served_kept
  constructor <;> omega

/-- In a round of a run instructions are counted no faster than cycles. -/
lemma Turns.paced (turns : Turns stop r r') : Paced r r' := by
  obtain ⟨-, -, b, e, ⟨-, -, visits⟩, run, rfl⟩ := turns.completes
  have whole := (r.served_paced.trans visits.paced).trans (executeOne_paced run)
  exact ⟨whole.counted, whole.slower⟩

/-- The same holds of any number of rounds. -/
lemma rounds_paced (rounds : Relation.ReflTransGen (Turns stop) m r) : Paced m r := by
  induction rounds with
  | refl => exact .refl m
  | tail _ turns ih => exact ih.trans turns.paced

/-- Up to every boundary of a run instructions are counted no faster than cycles. -/
lemma Instructs.paced (instructs : Instructs stop m s b) : Paced m b := by
  obtain ⟨⟨r, rounds, -, rfl⟩, -, visits⟩ := instructs
  exact ((rounds_paced rounds).trans r.served_paced).trans visits.paced

/-! ## Runs -/

/-- The word that is fetched next. -/
def nextWord (b : Machine β) : Half := ((Bus.fetch b.cpu.regs.pc).run b.bus).1

/-- A run of a machine that has not stopped ends, and accounts for what it did. Both its loops halt, of
rounds and of instructions in each slice. Either it meets a word without meaning, which it reports with
its address and latches, and whose high byte is the one that has none; no other fault exists. Or it
completes, and then it has spent at least the cycles asked for and less than 40 slowest clocks more, and
has completed instructions, not more than the cycles it spent. -/
theorem run_accounts {config : Config} {m : Machine β} {cycles : Nat}
    (masked : config.clockScaleMask.toNat ≤ 7) (reachable : m.cpu.Reachable config)
    (running : m.cpu.fault = none) (positive : 1 ≤ cycles)
    (fits : m.cpu.cycles + cycles < 0x8000000000000000) :
    Halts (Turns (m.runEnd cycles)) m ∧
    (∀ s, Cuts (m.runEnd cycles) m s →
      Halts Continues (opened (s.cpu.sliceBudget (m.runEnd cycles)) s)) ∧
    match (run cycles).run m with
    | (.error fault, m') => ∃ s b, Instructs (m.runEnd cycles) m s b ∧
      fault = .unimplementedOpcode b.cpu.regs.pc b.nextWord ∧
      b.nextWord.extractLsb' 8 8 = 0xcf ∧ m'.cpu.fault = some fault
    | (.ok outcome, m') => m'.cpu.cycles = m.cpu.cycles + outcome.cycles ∧
      cycles ≤ outcome.cycles ∧ outcome.cycles < cycles + 40 * 128 ∧
      m'.cpu.retired = m.cpu.retired + outcome.instructions ∧
      1 ≤ outcome.instructions ∧ outcome.instructions ≤ outcome.cycles := by
  have ends : m.runEnd cycles = m.cpu.cycles + cycles := by
    have : Cpu.lastCycle = 0xffffffffffffffff := rfl
    unfold runEnd
    omega
  refine ⟨rounds_halt _ m, fun s cuts => slice_halts (cuts.running running) cuts.budget_pos, ?_⟩
  -- The last instruction of the run decides how it ends.
  have before : m.cpu.cycles < m.runEnd cycles := by omega
  obtain ⟨s, b, result, e, instructs, last, ran⟩ := run_ends running before
  cases result with
  | error fault =>
    obtain ⟨eq, byte, latched⟩ := executeOne_fault last
    rw [ran]
    exact ⟨s, b, instructs, eq, byte, latched⟩
  | ok =>
    obtain ⟨reached, ran⟩ := ran
    have late := instructs.late last reachable.scaled
    have slowest : Cpu.slowestClock config.clockScaleMask ≤ 128 := by
      unfold Cpu.slowestClock
      rw [Nat.one_shiftLeft]
      exact Nat.pow_le_pow_right (by decide) masked
    obtain ⟨counted, slower⟩ := instructs.paced
    have spends := executeOne_spends last
    have retires := executeOne_retires last
    obtain ⟨spent, -, retired⟩ := served_kept ⟨e.cpu.closeSlice, e.bus⟩
    rw [ran]
    dsimp only
    rw [spent, retired]
    show e.cpu.cycles = _ ∧ _ ∧ _ ∧ e.cpu.retired = _ ∧ _ ∧ _
    refine ⟨?_, ?_, ?_, ?_, ?_, ?_⟩ <;> omega

/-- A machine at the slowest clock that is to divide by zero. -/
def beforeDivision : Machine (DeviceBus FlatMemory) :=
  (powerOn Variant.e132xs.config (({} : FlatMemory).loadHalves 0xfffffff8 [0x0b24])).call (.host .reset)

/-- A run of one cycle divides and enters the range error, which takes 38 clocks of eight cycles. -/
theorem beforeDivision_accounts :
    Halts (Turns (beforeDivision.runEnd 1)) beforeDivision ∧
    (∀ s, Cuts (beforeDivision.runEnd 1) beforeDivision s →
      Halts Continues (opened (s.cpu.sliceBudget (beforeDivision.runEnd 1)) s)) ∧
    ∃ m', (run 1).run beforeDivision = (.ok ⟨304, 1⟩, m') ∧
      m'.cpu.cycles = beforeDivision.cpu.cycles + 304 ∧ 304 < 1 + 40 * 128 ∧
      m'.cpu.retired = beforeDivision.cpu.retired + 1 := by
  have reachable : beforeDivision.cpu.Reachable Variant.e132xs.config :=
    .call (.host .reset) .powerOn
  have running : beforeDivision.cpu.fault = none := by decide +kernel
  have fits : beforeDivision.cpu.cycles + 1 < 0x8000000000000000 := by decide +kernel
  have outcome : ((run 1).run beforeDivision).1 = .ok ⟨304, 1⟩ := by decide +kernel
  have accounts := run_accounts (by decide) reachable running (by decide) fits
  rcases ran : (run 1).run beforeDivision with ⟨result, m'⟩
  rw [ran] at outcome accounts
  obtain rfl : result = .ok ⟨304, 1⟩ := outcome
  obtain ⟨rounds, slices, spent, -, late, counted, -⟩ := accounts
  exact ⟨rounds, slices, m', rfl, spent, late, counted⟩

end Machine

end E1Machine
