import E1Machine.Bus.Flat
import E1Machine.Bus.Traced
import E1Machine.Proofs.Recognition
import E1Machine.Proofs.Timekeeping
import Mathlib

/-!
# Slicing is invisible

A host may run a machine in one slice or one instruction at a time: as long as the program does not read
the tick count, both end in the same state after the same requests. Every single step looks for
interrupts once more than the slice would, and forgets how far the lockout ran below zero. Neither shows:
inside a slice no interrupt ever waits (`E1Machine.Proofs.Recognition`), so the extra look finds nothing,
and a lockout that is not positive holds nothing back, however low it is.

The tick count is an exception because reading it is charged only if the slice has enough cycles left.
-/

namespace E1Machine

namespace Cpu

/-! ## What slicing leaves out -/

/-- A processor whose lockout is taken as zero if it holds nothing back. -/
def clamped (c : Cpu) : Cpu := { c with lockout := max c.lockout 0 }

/-- A processor without the budget of its slice, and with a lockout that holds nothing back taken as
zero. -/
def atRest (c : Cpu) : Cpu := { c with remaining := 0, lockout := max c.lockout 0 }

/-- Two processors that differ only in the budget of the slice and in how far below zero the lockout
is. -/
def Alike (c d : Cpu) : Prop := c.atRest = d.atRest

/-- A function whose effect at rest depends only on what is there at rest keeps processors alike. -/
lemma Alike.map {c d : Cpu} (r : Alike c d) (f g : Cpu → Cpu)
    (acts : ∀ c, (f c).atRest = g c.atRest) : Alike (f c) (f d) := by
  unfold Alike at r ⊢
  rw [acts, acts, r]

/-- A function that acts at rest as it does otherwise keeps processors alike. -/
lemma Alike.keep {c d : Cpu} (r : Alike c d) (f : Cpu → Cpu)
    (acts : ∀ c, (f c).atRest = f c.atRest) : Alike (f c) (f d) :=
  r.map f f acts

/-- Blocking acts on what is left at rest. -/
lemma atRest_block (c : Cpu) (n : Nat) : (c.block n).atRest = c.atRest.block n := by
  have lockout : max (max c.lockout n) 0 = max (max c.lockout 0) (n : Int) := by omega
  unfold atRest block
  dsimp only
  rw [lockout]

/-- Opening a slice changes nothing at rest. -/
lemma atRest_openSlice (c : Cpu) (budget : Nat) : (c.openSlice budget).atRest = c.atRest := by
  have lockout : max (max c.lockout 0) 0 = max c.lockout 0 := by omega
  unfold atRest openSlice
  dsimp only
  rw [lockout]

/-- Counting an instruction acts on what is left at rest. -/
lemma atRest_retire (c : Cpu) : c.retire.atRest = c.atRest.retire.atRest := by
  have lockout : max (max (c.lockout - 1) lockoutFloor) 0 =
      max (max (max c.lockout 0 - 1) lockoutFloor) 0 := by
    unfold lockoutFloor
    omega
  unfold atRest retire
  dsimp only
  rw [lockout]

/-- What slicing leaves out is timekeeping. -/
lemma alike_timekeeping : Timekeeping Alike where
  core_eq r := congrArg (·.core) r
  withCore core r := r.keep (·.withCore core) fun _ => rfl
  scale_eq r := congrArg (·.timer.scale) r
  due_eq {c d} r := by
    have due (e : Cpu) : e.interruptDue = e.atRest.interruptDue := by
      have held : 0 < e.lockout ↔ 0 < max e.lockout 0 := by omega
      unfold interruptDue
      simp only [held]
      rfl
    rw [due c, due d, r]
  spend n r := r.map (·.spend n) (fun c => { c with cycles := c.cycles + n }) fun _ => rfl
  block n r := r.keep (·.block n) fun c => c.atRest_block n
  retire r := r.map Cpu.retire (fun c => c.retire.atRest) atRest_retire
  expires_iff {c d} r := by
    have same : max c.lockout 0 = max d.lockout 0 := congrArg (·.lockout) r
    -- The floor is below zero: the lockout runs out from one and from nowhere else.
    have expires (e : Cpu) : e.retire.lockout = 0 ↔ max e.lockout 0 = 1 := by
      show max (e.lockout - 1) lockoutFloor = 0 ↔ _
      unfold lockoutFloor
      omega
    rw [expires, expires, same]
  reschedule r := r.keep Cpu.reschedule fun _ => rfl
  setPrescale tpr r := r.keep (fun c => { c with timer := c.timer.setPrescale c.cycles tpr })
    fun _ => rfl
  rebase value r := r.keep (fun c => { c with timer := c.timer.rebase c.cycles value }) fun _ => rfl
  serve r := r.keep (fun c => { c with timer := { c.timer with pending := false } }) fun _ => rfl

/-- Processors that are alike stay so through whole instruction cycles. -/
lemma alike_cycleCongruence : CycleCongruence Alike := alike_timekeeping.cycleCongruence

end Cpu

namespace Machine

variable {β : Type} [Bus β]

/-! ## Single steps -/

/-- What comes of single steps that are made until so many cycles are spent, or until one fails: the
cycles spent or the fault, and the machine. -/
inductive Steps : Nat → Machine β → Except Fault Nat → Machine β → Prop
  | fails {cycles : Nat} {m m' : Machine β} {fault : Fault} :
    step.run m = (.error fault, m') → Steps cycles m (.error fault) m'
  | ends {cycles n : Nat} {m m' : Machine β} :
    step.run m = (.ok n, m') → cycles ≤ n → Steps cycles m (.ok n) m'
  | goesOn {cycles n : Nat} {m m' m'' : Machine β} {result : Except Fault Nat} :
    step.run m = (.ok n, m') → n < cycles → Steps (cycles - n) m' result m'' →
      Steps cycles m (result.map (n + ·)) m''

/-- Single steps have one outcome. -/
lemma Steps.unique {cycles : Nat} {m e : Machine β} {result : Except Fault Nat}
    (steps : Steps cycles m result e) : ∀ {result' : Except Fault Nat} {e' : Machine β},
    Steps cycles m result' e' → result' = result ∧ e' = e := by
  -- Both sequences take the same first step, so they have the same last one.
  induction steps with
  | fails run =>
    intro _ _ other
    cases other with
    | fails run' =>
      rw [run] at run'
      cases run'
      exact ⟨rfl, rfl⟩
    | ends run' => cases run.symm.trans run'
    | goesOn run' => cases run.symm.trans run'
  | ends run enough =>
    intro _ _ other
    cases other with
    | fails run' => cases run.symm.trans run'
    | ends run' =>
      rw [run] at run'
      cases run'
      exact ⟨rfl, rfl⟩
    | goesOn run' more =>
      rw [run] at run'
      cases run'
      omega
  | goesOn run more _ ih =>
    intro _ _ other
    cases other with
    | fails run' => cases run.symm.trans run'
    | ends run' enough =>
      rw [run] at run'
      cases run'
      omega
    | goesOn run' _ rest =>
      rw [run] at run'
      cases run'
      obtain ⟨rfl, rfl⟩ := ih rest
      exact ⟨rfl, rfl⟩

/-- One instruction is all that fuel for one allows. -/
lemma executeWhile_one (b : Machine β) : (executeWhile 1).run b = executeOne.run b := by
  rw [executeWhile_succ]
  rcases run : executeOne.run b with ⟨fault | _, b'⟩
  · rfl
  · show (if 0 < b'.cpu.remaining then executeWhile 0 else pure (.ok ())).run b' = _
    rw [show (executeWhile 0 : Exec β (Except Fault Unit)) = pure (.ok ()) from rfl, ite_self]
    rfl

/-- A step runs one instruction, after the interrupt that may precede it. -/
lemma step_run {m e : Machine β} {result : Except Fault Unit} (running : m.cpu.fault = none)
    (run : executeOne.run (opened 1 m) = (result, e)) :
    step.run m =
      (result.map fun () => e.cpu.cycles - m.cpu.cycles, ⟨e.cpu.closeSlice, e.bus⟩) := by
  have one : 1 ≠ 0 := Nat.one_ne_zero
  refine slice_run running one ?_
  rw [← run]
  exact executeWhile_one _

/-! ## Steps follow a slice -/

/-- Whether the instruction at a boundary reads the tick count. -/
def ReadsTicks (b : Machine β) : Prop := ∃ i, (fetchNext.run b).1 = .ok i ∧ i.readsTicks = true

/-- Whether an instruction reads the tick count can be decided by what is fetched. -/
instance (b : Machine β) : Decidable b.ReadsTicks :=
  decidable_of_iff ((fetchNext.run b).1.toOption.any Instruction.readsTicks = true) <| by
    unfold ReadsTicks
    cases (fetchNext.run b).1 <;> simp [Except.toOption]

/-- An instruction that reads the tick count is a move with the high flag set and global register 7 in
its source field. -/
lemma ReadsTicks.isMove {b : Machine β} (reads : b.ReadsTicks) :
    let word := ((Bus.fetch b.cpu.regs.pc).run b.bus).1
    (Encoding.ofWord word).operation = .mov ∧ b.cpu.status.h = true ∧
      (Encoding.ofWord word).srcOperand word = ⟨.globals, 7⟩ := by
  obtain ⟨i, fetched, reads⟩ := reads
  by_contra other
  have quiet := b.fetchNext_finds
    (Decode.decode_quiet _ _ _ fun mov high src => other ⟨mov, high, src⟩) fetched
  rw [quiet i rfl] at reads
  cases reads

/-- Two machines on the same bus whose processors differ only in what slicing leaves out. -/
def Alike (m m' : Machine β) : Prop := m.cpu.Alike m'.cpu ∧ m.bus = m'.bus

/-- Machines that are alike run an instruction alike, unless it reads the tick count. -/
lemma Alike.executeOne {b b' : Machine β} (alike : Alike b b') (quiet : ¬ b.ReadsTicks) :
    (Machine.executeOne.run b).1 = (Machine.executeOne.run b').1 ∧
      Alike (Machine.executeOne.run b).2 (Machine.executeOne.run b').2 :=
  executeOne_related Cpu.alike_cycleCongruence .refl alike.1 alike.2
    fun i fetched reads => absurd ⟨i, fetched, reads⟩ quiet

/-- Slices of machines that are alike open alike, whatever their budgets. -/
lemma Alike.opened {m m' : Machine β} (alike : Alike m m') (cycles cycles' : Nat) :
    Alike (Machine.opened cycles m) (Machine.opened cycles' m') := by
  have openAlike : (m.cpu.openSlice (min cycles Cpu.maxBudget)).Alike
      (m'.cpu.openSlice (min cycles' Cpu.maxBudget)) := by
    unfold Cpu.Alike
    rw [Cpu.atRest_openSlice, Cpu.atRest_openSlice]
    exact alike.1
  have related := checkInterrupts_related (β := β) Cpu.alike_cycleCongruence .refl
  exact (@related ⟨_, m.bus⟩ ⟨_, m'.bus⟩ openAlike alike.2).2

/-- Opening a slice changes nothing that shows if no interrupt waits. -/
lemma alike_opened {m : Machine β} (recognized : m.cpu.Recognized) (cycles : Nat) :
    Alike m (opened cycles m) := by
  have openAlike : m.cpu.Alike (m.cpu.openSlice (min cycles Cpu.maxBudget)) :=
    (Cpu.atRest_openSlice _ _).symm
  obtain ⟨-, run⟩ | ⟨source, bus, due, -⟩ := checkInterrupts_cases
    (⟨m.cpu.openSlice (min cycles Cpu.maxBudget), m.bus⟩ : Machine β)
  · unfold opened
    rw [run]
    exact ⟨openAlike, rfl⟩
  · rw [← Cpu.alike_cycleCongruence.due_eq openAlike, m.cpu.recognized_iff.mp recognized] at due
    cases due

omit [Bus β] in
/-- Machines that differ in their slices only have spent the same cycles. -/
lemma Alike.cycles_eq {m m' : Machine β} (alike : Alike m m') : m'.cpu.cycles = m.cpu.cycles :=
  congrArg (·.cycles) alike.1.symm

/-- A step opens where a slice goes on, since nothing waits at its boundaries. -/
lemma Alike.reopened {m m' : Machine β} (alike : Alike m m') (recognized : m.cpu.Recognized) :
    Alike m (Machine.opened 1 m') := by
  have waits := alike_opened recognized 1
  have opens := alike.opened 1 1
  exact ⟨waits.1.trans opens.1, waits.2.trans opens.2⟩

/-- A single step does what a slice does with the instruction at the boundary where it opens. -/
lemma step_follows {b c m : Machine β} {result : Except Fault Unit}
    (alike : Alike b (opened 1 m)) (quiet : ¬ b.ReadsTicks) (running : m.cpu.fault = none)
    (run : executeOne.run b = (result, c)) :
    ∃ c', step.run m = (result.map fun () => c.cpu.cycles - m.cpu.cycles, c') ∧
      Alike c c' ∧ c'.cpu.remaining = 0 ∧ (result = .ok () → c'.cpu.fault = none) := by
  obtain ⟨same, after⟩ := alike.executeOne quiet
  rcases run' : executeOne.run (opened 1 m) with ⟨result', c'⟩
  rw [run, run'] at same after
  cases same
  have stepped := step_run running run'
  rw [Alike.cycles_eq after] at stepped
  refine ⟨⟨c'.cpu.closeSlice, c'.bus⟩, stepped, after, rfl, ?_⟩
  rintro rfl
  have openedRunning : (opened 1 m).cpu.fault = none :=
    (Cpu.fault_lasting none).checkInterrupts running
  have stillRunning := (Cpu.fault_lasting none).executeOne run' openedRunning
  exact stillRunning

/-- The cycles of the rest of a slice add to those of its first instruction. -/
lemma spent_add {last e c : Machine β} {result : Except Fault Unit} {start : Nat}
    (run : executeOne.run last = (result, e)) (path : Relation.ReflTransGen Continues c last)
    (before : start ≤ c.cpu.cycles) :
    (result.map fun () => e.cpu.cycles - start) =
      (result.map fun () => e.cpu.cycles - c.cpu.cycles).map (c.cpu.cycles - start + ·) := by
  cases result with
  | error fault => rfl
  | ok _ =>
    have passed : c.cpu.cycles ≤ last.cpu.cycles :=
      Continues.lasting (Cpu.spent_lasting _) path (Nat.le_refl _)
    have ended := executeOne_spends run
    have sum : e.cpu.cycles - start = c.cpu.cycles - start + (e.cpu.cycles - c.cpu.cycles) := by
      omega
    exact congrArg Except.ok sum

/-- Single steps go through the boundaries of a slice up to its last instruction. -/
lemma steps_follow {last e : Machine β} {result : Except Fault Unit}
    (run : executeOne.run last = (result, e)) (exhausted : result = .ok () → e.cpu.remaining ≤ 0)
    {b : Machine β} (path : Relation.ReflTransGen Continues b last) :
    ∀ {m : Machine β} {cycles : Nat}, Alike b (opened 1 m) → b.cpu.Recognized →
      m.cpu.fault = none → b.cpu.account = m.cpu.cycles + cycles →
      (∀ c, Relation.ReflTransGen Continues b c → ¬ c.ReadsTicks) →
      ∃ e', Steps cycles m (result.map fun () => e.cpu.cycles - m.cpu.cycles) e' ∧
        Alike e e' ∧ e'.cpu.remaining = 0 := by
  -- The induction is along the slice. The machine between two steps is any that opens alike the
  -- boundary, and the account of the slice is what its steps still have to spend.
  induction path using Relation.ReflTransGen.head_induction_on with
  | refl =>
    intro m cycles alike _ running account quiet
    obtain ⟨e', stepped, after, closed, -⟩ := step_follows alike (quiet last .refl) running run
    refine ⟨e', ?_, after, closed⟩
    cases result with
    | error fault => exact .fails stepped
    | ok _ =>
      have final := executeOne_account last
      rw [run, account] at final
      simp only [Cpu.account] at final
      have used := exhausted rfl
      have enough : cycles ≤ e.cpu.cycles - m.cpu.cycles := by omega
      exact .ends stepped enough
  | @head b c continues path ih =>
    intro m cycles alike recognized running account quiet
    obtain ⟨c', stepped, after, -, stillRunning⟩ :=
      step_follows alike (quiet b .refl) running continues.1
    have recognizedNext := executeOne_recognized recognized
    have next := executeOne_account b
    rw [continues.1] at recognizedNext next
    have opens : m.cpu.cycles ≤ b.cpu.cycles := by
      rw [← alike.cycles_eq]
      exact opened_spent 1 m
    have spends := executeOne_spends continues.1
    have left := continues.2
    have spent := Alike.cycles_eq after
    rw [account] at next
    simp only [Cpu.account] at next
    have budget : c.cpu.account =
        (c'.cpu.cycles : Int) + (cycles - (c.cpu.cycles - m.cpu.cycles) : Nat) := by
      rw [spent]
      simp only [Cpu.account]
      omega
    obtain ⟨e', rest, final, closed⟩ := ih (Alike.reopened after recognizedNext) recognizedNext
      (stillRunning rfl) budget fun d passes => quiet d (.head continues passes)
    rw [spent] at rest
    refine ⟨e', ?_, final, closed⟩
    rw [spent_add run path (by omega)]
    exact .goesOn stepped (by omega) rest

/-- Slicing is invisible. From a machine without a latched fault, single steps made until so many cycles
are spent have one outcome, and it is that of a slice of as many cycles: the same cycles spent or the same
fault, the same processor up to how far the lockout is below zero, and the same bus, with its on-chip RAM,
its host and everything that was asked of the host, provided that no instruction of the slice reads the
tick count. -/
theorem slicing_invisible (m : Machine (DeviceBus (Traced β))) (cycles : Nat)
    (positive : 1 ≤ cycles) (bounded : cycles < 2 ^ 63) (running : m.cpu.fault = none)
    (quiet : ∀ b, Visits cycles m b → ¬ b.ReadsTicks) :
    ∃ e, (∀ result e', Steps cycles m result e' ↔
        result = ((slice cycles).run m).1 ∧ e' = e) ∧
      e.cpu.clamped = ((slice cycles).run m).2.cpu.clamped ∧
      e.bus = ((slice cycles).run m).2.bus := by
  have nonzero : cycles ≠ 0 := Nat.ne_of_gt positive
  obtain ⟨last, result, e, visits, run, exhausted, ends⟩ := slice_ends running nonzero
  -- The steps follow the slice from its opening on, and owe what it has as its budget.
  have budget : (opened cycles m).cpu.account = m.cpu.cycles + cycles := by
    have whole : cycles ≤ Cpu.maxBudget := Nat.le_sub_one_of_lt bounded
    rw [opened_account, Nat.min_eq_left whole]
  have opens : Alike (opened cycles m) (opened 1 m) := Alike.opened ⟨rfl, rfl⟩ cycles 1
  obtain ⟨e', steps, final, closed⟩ := steps_follow run exhausted visits opens
    (Visits.recognized .refl) running budget quiet
  rw [ends]
  refine ⟨e', ?_, ?_, final.2.symm⟩
  · intro result' e''
    constructor
    · exact steps.unique
    · rintro ⟨rfl, rfl⟩
      exact steps
  · have rests : e'.cpu.clamped = e'.cpu.atRest :=
      congrArg (fun left => { e'.cpu.clamped with remaining := left }) closed
    exact rests.trans final.1.symm

/-- A machine that is about to run two moves. -/
def twoMoves : Machine (DeviceBus (Traced FlatMemory)) :=
  powerOn Variant.e132t.config ⟨({} : FlatMemory).loadHalves 0 [0x6441, 0x6452], #[]⟩

/-- Two steps do what a slice of two moves does. -/
theorem twoMoves_sliced :
    (∀ b, Visits 2 twoMoves b → ¬ b.ReadsTicks) ∧
    ∃ e, (∀ result e', Steps 2 twoMoves result e' ↔ result = .ok 2 ∧ e' = e) ∧
      e.cpu.clamped = ((slice 2).run twoMoves).2.cpu.clamped ∧
      e.bus = ((slice 2).run twoMoves).2.bus := by
  have quiet : ∀ b, Visits 2 twoMoves b → ¬ b.ReadsTicks := by
    intro b visits
    obtain first | second := visits.first_or_second (by decide +kernel)
    · rw [first]
      decide +kernel
    · rw [second]
      decide +kernel
  have spent : ((slice 2).run twoMoves).1 = .ok 2 := by decide +kernel
  have invisible := slicing_invisible twoMoves 2 (by decide) (by decide) rfl quiet
  rw [spent] at invisible
  exact ⟨quiet, invisible⟩

end Machine

end E1Machine
