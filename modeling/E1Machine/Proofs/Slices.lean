import E1Machine.Proofs.Cycle
import E1Machine.Run
import Mathlib.Logic.Relation

/-!
# The instructions of a slice

A slice is a look for interrupts and then instruction cycles, one after another until the budget is
used up or a fault stops it. `Visits` are the boundaries at which it starts an instruction. The fuel of
`executeWhile` plays no part: a slice ends with an instruction cycle at a visited boundary, one that
stops or uses up the budget (`slice_ends`).
-/

namespace E1Machine

namespace Machine

variable {β : Type} [Bus β]

/-- A machine at the start of the first instruction of a slice. -/
def opened (cycles : Nat) (m : Machine β) : Machine β :=
  (checkInterrupts.run ⟨m.cpu.openSlice (min cycles Cpu.maxBudget), m.bus⟩).2

/-- An instruction cycle after which the slice goes on. -/
def Continues (b b' : Machine β) : Prop :=
  executeOne.run b = (.ok (), b') ∧ 0 < b'.cpu.remaining

/-- A slice goes on after an instruction cycle that completes and leaves some of the budget. -/
lemma continues_of_ok {b : Machine β} (completes : (executeOne.run b).1 = .ok ())
    (left : 0 < (executeOne.run b).2.cpu.remaining) : Continues b (executeOne.run b).2 :=
  ⟨Prod.ext completes rfl, left⟩

/-- The boundaries at which a slice of the machine starts an instruction. -/
def Visits (cycles : Nat) (m b : Machine β) : Prop :=
  Relation.ReflTransGen Continues (opened cycles m) b

/-- What a slice does: nothing after a fault or without a budget. -/
lemma slice_eq (m : Machine β) (cycles : Nat) :
    (slice cycles).run m =
      (match m.cpu.fault with
        | some fault => pure (.error fault)
        | none =>
          if cycles = 0 then pure (.ok 0)
          else do
            modifyCpu (·.openSlice (min cycles Cpu.maxBudget))
            checkInterrupts
            let result ← executeWhile (min cycles Cpu.maxBudget)
            modifyCpu (·.closeSlice)
            let spent := (← getCpu).cycles - m.cpu.cycles
            return result.map fun () => spent : Exec β (Except Fault Nat)).run m := rfl

/-- A slice of a machine with a latched fault does nothing and reports the fault. -/
lemma slice_stopped {m : Machine β} {fault : Fault} (stopped : m.cpu.fault = some fault)
    (cycles : Nat) : (slice cycles).run m = (.error fault, m) := by
  rw [slice_eq, stopped]
  rfl

/-- A slice without a budget does nothing. -/
lemma slice_zero {m : Machine β} (running : m.cpu.fault = none) :
    (slice 0).run m = (.ok 0, m) := by
  rw [slice_eq, running]
  rfl

/-- A slice opens, runs its instructions, and closes. -/
lemma slice_run {m : Machine β} {cycles : Nat} (running : m.cpu.fault = none)
    (positive : cycles ≠ 0) {result : Except Fault Unit} {e : Machine β}
    (ran : (executeWhile (min cycles Cpu.maxBudget)).run (opened cycles m) = (result, e)) :
    (slice cycles).run m =
      (result.map fun () => e.cpu.cycles - m.cpu.cycles, ⟨e.cpu.closeSlice, e.bus⟩) := by
  rw [slice_eq, running]
  dsimp only
  rw [if_neg positive]
  have rest : ((executeWhile (min cycles Cpu.maxBudget)).run (opened cycles m)).1 = result ∧
      ((executeWhile (min cycles Cpu.maxBudget)).run (opened cycles m)).2 = e := by
    rw [ran]
    exact ⟨rfl, rfl⟩
  rw [← rest.1, ← rest.2]
  rfl

/-- What the loop of a slice does with an instruction and the fuel that is left. -/
lemma executeWhile_succ (fuel : Nat) (b : Machine β) :
    (executeWhile (fuel + 1)).run b =
      (match (executeOne.run b).1 with
        | .error fault => pure (.error fault)
        | .ok () => getCpu >>= fun c =>
          if 0 < c.remaining then executeWhile fuel else pure (.ok ()) :
          Exec β (Except Fault Unit)).run (executeOne.run b).2 := rfl

/-- The loop stops with an instruction cycle that stops. -/
lemma executeWhile_stops {b c : Machine β} {fault : Fault}
    (run : executeOne.run b = (.error fault, c)) (fuel : Nat) :
    (executeWhile (fuel + 1)).run b = (.error fault, c) := by
  rw [executeWhile_succ, run]
  rfl

/-- After an instruction cycle that completes, the loop goes on if some of the budget is left. -/
lemma executeWhile_completes {b c : Machine β} (run : executeOne.run b = (.ok (), c)) (fuel : Nat) :
    (executeWhile (fuel + 1)).run b =
      if 0 < c.cpu.remaining then (executeWhile fuel).run c else (.ok (), c) := by
  have loop : (executeWhile (fuel + 1)).run b =
      (if 0 < c.cpu.remaining then executeWhile fuel else pure (.ok ())).run c := by
    rw [executeWhile_succ, run]
    rfl
  rw [loop]
  split <;> rfl

/-- With enough fuel, the instructions of a slice end with one that stops or uses up the budget. -/
lemma executeWhile_ends (fuel : Nat) : ∀ {b : Machine β}, b.cpu.remaining ≤ fuel → 0 < fuel →
    ∃ last, Relation.ReflTransGen Continues b last ∧
      (executeWhile fuel).run b = executeOne.run last ∧
      ((executeOne.run last).1 = .ok () → (executeOne.run last).2.cpu.remaining ≤ 0) := by
  induction fuel with
  | zero => exact fun _ positive => absurd positive (Nat.lt_irrefl 0)
  | succ fuel ih =>
    intro b enough _
    rcases run : executeOne.run b with ⟨fault | _, c⟩
    · refine ⟨b, .refl, ?_, ?_⟩
      · rw [executeWhile_stops run, run]
      · rw [run]
        exact nofun
    · have account := executeOne_account b
      have spends := executeOne_spends run
      rw [run] at account
      simp only [Cpu.account] at account
      rw [executeWhile_completes run]
      by_cases more : 0 < c.cpu.remaining
      · -- The instruction has spent at least the one cycle that its fuel stands for.
        obtain ⟨last, visits, ends, exhausted⟩ := ih (b := c) (by omega) (by omega)
        refine ⟨last, .head ⟨run, more⟩ visits, ?_, exhausted⟩
        rw [if_pos more, ends]
      · refine ⟨b, .refl, ?_, ?_⟩
        · rw [if_neg more, run]
        · rw [run]
          exact fun _ => Int.not_lt.mp more

/-- Opening a slice sets its account: what is spent so far and the budget. -/
lemma opened_account (cycles : Nat) (m : Machine β) :
    (opened cycles m).cpu.account = m.cpu.cycles + (min cycles Cpu.maxBudget : Nat) :=
  (Cpu.account_lasting _).checkInterrupts rfl

/-- The start of a slice may spend the cycles of an entry, and takes none back. -/
lemma opened_spent (cycles : Nat) (m : Machine β) : m.cpu.cycles ≤ (opened cycles m).cpu.cycles :=
  (Cpu.spent_lasting _).checkInterrupts (Nat.le_refl _)

/-- A slice ends with an instruction at a visited boundary, which stops it or uses up its budget. -/
theorem slice_ends {m : Machine β} {cycles : Nat} (running : m.cpu.fault = none)
    (positive : cycles ≠ 0) :
    ∃ last result e, Visits cycles m last ∧ executeOne.run last = (result, e) ∧
      (result = .ok () → e.cpu.remaining ≤ 0) ∧
      (slice cycles).run m =
        (result.map fun () => e.cpu.cycles - m.cpu.cycles, ⟨e.cpu.closeSlice, e.bus⟩) := by
  have account := opened_account cycles m
  have spent := opened_spent cycles m
  simp only [Cpu.account] at account
  have fuel : 0 < min cycles Cpu.maxBudget := Nat.lt_min.mpr ⟨by omega, by decide⟩
  obtain ⟨last, visits, ends, exhausted⟩ :=
    executeWhile_ends (min cycles Cpu.maxBudget) (b := opened cycles m) (by omega) fuel
  rcases run : executeOne.run last with ⟨result, e⟩
  rw [run] at ends exhausted
  exact ⟨last, result, e, visits, run, exhausted, slice_run running positive ends⟩

/-- A slice that ends with its second instruction has visited two boundaries. -/
lemma Visits.first_or_second {cycles : Nat} {m b : Machine β} (visits : Visits cycles m b)
    (exhausted : (executeOne.run (executeOne.run (opened cycles m)).2).2.cpu.remaining ≤ 0) :
    b = opened cycles m ∨ b = (executeOne.run (opened cycles m)).2 := by
  obtain rfl | ⟨c, ⟨run, -⟩, rest⟩ := visits.cases_head
  · exact .inl rfl
  have second : (executeOne.run (opened cycles m)).2 = c := congrArg Prod.snd run
  subst second
  obtain rfl | ⟨d, ⟨run', left⟩, -⟩ := rest.cases_head
  · exact .inr rfl
  have third : (executeOne.run (executeOne.run (opened cycles m)).2).2 = d := congrArg Prod.snd run'
  subst third
  exact absurd left (Int.not_lt.mpr exhausted)

/-! ## What holds at every boundary -/

/-- A lasting invariant holds at every boundary after one at which it holds. -/
lemma Continues.lasting {P : Cpu → Prop} (h : Cpu.Lasting P) {b c : Machine β}
    (passes : Relation.ReflTransGen Continues b c) (p : P b.cpu) : P c.cpu := by
  induction passes with
  | refl => exact p
  | tail _ next ih => exact h.executeOne next.1 ih

/-- A lasting invariant that a stop keeps survives the loop of a slice, whatever it ends with. -/
lemma executeWhile_lasting {P : Cpu → Prop} {fuel : Nat} : ∀ {b e : Machine β} {result : Except Fault Unit},
    (executeWhile fuel).run b = (result, e) → Cpu.Lasting P →
    (∀ {c : Cpu} (fault : Fault), P c → P (c.stop fault)) → P b.cpu → P e.cpu := by
  induction fuel with
  | zero =>
    intro b e result ran _ _ p
    cases ran
    exact p
  | succ fuel ih =>
    intro b e result ran h stop p
    have next := h.executeOne_stop stop p
    rcases run : executeOne.run b with ⟨fault | _, c⟩
    · rw [run] at next
      cases ran.symm.trans (executeWhile_stops run fuel)
      exact next
    · rw [run] at next
      rw [executeWhile_completes run] at ran
      split at ran
      · exact ih ran h stop next
      · cases ran
        exact next

/-- What a slice spends is what its loop takes from the budget. -/
lemma slice_spends {m : Machine β} {cycles : Nat} (running : m.cpu.fault = none) (positive : cycles ≠ 0) :
    let looped := (executeWhile (min cycles Cpu.maxBudget)).run (opened cycles m)
    ∃ spent : Nat, looped.2.cpu.cycles = m.cpu.cycles + spent ∧
      looped.2.cpu.remaining = (min cycles Cpu.maxBudget : Nat) - spent ∧
      (slice cycles).run m =
        (looped.1.map fun () => spent, ⟨looped.2.cpu.closeSlice, looped.2.bus⟩) := by
  intro looped
  have account : looped.2.cpu.account = m.cpu.cycles + (min cycles Cpu.maxBudget : Nat) :=
    executeWhile_lasting rfl (Cpu.account_lasting _) (fun _ p => p) (opened_account cycles m)
  have passed : m.cpu.cycles ≤ looped.2.cpu.cycles :=
    executeWhile_lasting rfl (Cpu.spent_lasting _) (fun _ p => p) (opened_spent cycles m)
  simp only [Cpu.account] at account
  exact ⟨looped.2.cpu.cycles - m.cpu.cycles, by omega, by omega, slice_run running positive rfl⟩

end Machine

end E1Machine
