import E1Machine.Proofs.Accounts
import E1Machine.Proofs.Checked.Decoding

/-!
# Checked running

The instruction cycle, slices and runs, as attempts. An instruction cycle makes at most four charges, so a sound
processor with some of its budget left has room for the next one. It counts an instruction and spends at least a
cycle (`Paced`), so that the count of instructions stays as far from its bound as the count of cycles does.

Main statements: `slice_succeeds` and `run_succeeds`, for processors whose counts are far from their bounds.
-/

namespace E1Machine

namespace Checked

variable {span : Span} {n : Nat} {c : Cpu}

/-! ## Interrupts -/

/-- Whether a source asks for recognition: its line is masked in the input status register. -/
def isPending (isr : Word) (timerPending : Bool) : InterruptSource → Option Bool
  | .timer => some timerPending
  | .line line => do
    let place ← amount 32 line.index
    return isr &&& (1#32 <<< place) != 0

/-- The first source on a ladder that is pending and enabled. -/
def resolveOn (isr fcr : Word) (timerPending : Bool) : List LadderRung → Option (Option InterruptSource)
  | [] => some none
  | rung :: rungs => do
    if (← isPending isr timerPending rung.source) && rung.enabled fcr then return some rung.source
    else resolveOn isr fcr timerPending rungs

/-- The source whose interrupt is to be taken, if interrupts are neither locked nor held back. -/
def interruptDue (c : Cpu) : Option (Option InterruptSource) :=
  if c.status.l || 0 < c.lockout then some none
  else resolveOn (c.regs.global Global.isr) (c.regs.global Global.fcr) c.timer.pending interruptLadder

/-- Enters the handler of a source, whose request is used up if it is the timer's. -/
def takeInterrupt (c : Cpu) (source : InterruptSource) : Option Cpu :=
  let timer := match source with
    | .timer => { c.timer with pending := false }
    | .line _ => c.timer
  enterInterrupt { c with timer } source

/-- A word under the mask of a bit is not zero if the bit is set. -/
lemma masked_eq (word : Word) {place : Nat} (few : place < 32) :
    (word &&& (1#32 <<< place) != 0) = word.getLsbD place := by
  have bit : (1#32 <<< place) = BitVec.twoPow 32 place := rfl
  have nonzero : BitVec.twoPow 32 place ≠ 0#32 := fun zero => by
    have eq := congrArg BitVec.toNat zero
    rw [BitVec.toNat_twoPow_of_lt few] at eq
    exact absurd eq (Nat.ne_of_gt (Nat.two_pow_pos place))
  rw [bit, BitVec.and_twoPow]
  cases word.getLsbD place with
  | true => exact bne_iff_ne.mpr nonzero
  | false => rfl

/-- Whether a source asks is always known. -/
lemma isPending_eq (isr : Word) (timerPending : Bool) (source : InterruptSource) :
    isPending isr timerPending source = some (source.isPending isr timerPending) := by
  cases source with
  | timer => rfl
  | line line =>
    have few : line.index < 32 := by cases line <;> decide
    exact proceeds (amount_eq few) (congrArg some (masked_eq isr few))

/-- The first source of a ladder is found without fail, by induction on its rungs. -/
lemma resolveOn_eq (isr fcr : Word) (timerPending : Bool) (rungs : List LadderRung) :
    resolveOn isr fcr timerPending rungs = some ((rungs.find? fun rung =>
      rung.source.isPending isr timerPending && rung.enabled fcr).map (·.source)) := by
  induction rungs with
  | nil => rfl
  | cons rung rungs ih =>
    refine proceeds (isPending_eq isr timerPending rung.source) ?_
    rw [List.find?_cons]
    cases rung.source.isPending isr timerPending && rung.enabled fcr with
    | true => rfl
    | false => exact ih

/-- The source to take is found without fail. -/
lemma interruptDue_eq (c : Cpu) : interruptDue c = some c.interruptDue := by
  unfold interruptDue Cpu.interruptDue
  split
  · rfl
  · exact resolveOn_eq _ _ _ _

/-- An interrupt is always taken where there is room for a charge. -/
lemma takeInterrupt_gives (s : Sound span (n + 1) c) (source : InterruptSource) :
    Gives span n (takeInterrupt c source) (c.takeInterrupt source) := by
  cases source with
  | timer =>
    have answered : Sound span (n + 1) { c with timer := { c.timer with pending := false } } :=
      s.keep (s.regular.keep rfl rfl rfl) rfl rfl
    exact enterInterrupt_gives answered .timer
  | line line => exact enterInterrupt_gives (c := { c with timer := c.timer }) s (.line line)

section

variable {β : Type} [Bus β]

/-- Takes the interrupt that is due, if there is one, and tells the host if it is that of a line. -/
def checkInterrupts : Attempt β Unit := do
  let c ← surely Machine.getCpu
  match ← compute (interruptDue c) with
  | none => pure ()
  | some source =>
    tryCpu (takeInterrupt · source)
    match source with
    | .timer => pure ()
    | .line line => surely (Machine.onBus (Bus.acknowledge line))

/-- The check for interrupts never fails. -/
lemma checkInterrupts_does :
    Does span (n + 1) n (checkInterrupts : Attempt β Unit) Machine.checkInterrupts := by
  refine .bind .getCpu fun c => .after (interruptDue_eq c) ?_
  cases c.interruptDue with
  | none => exact Does.less (.pure ())
  | some source =>
    refine .seq (.tryCpu fun s => takeInterrupt_gives s source) ?_
    cases source with
    | timer => exact .pure ()
    | line line => exact .onBus _

/-! ## The instruction cycle -/

/-- Makes requests to the bus while computing something. -/
def requests {α : Type} (x : StateT β Option α) : Attempt β α := fun b => do
  let (a, bus) ← x.run b.bus
  return (a, ⟨b.cpu, bus⟩)

/-- Fetches and decodes the next instruction, and redirects the program counter in a delay slot. -/
def fetchNext : Attempt β (Except Fault Instruction) := do
  let c ← surely Machine.getCpu
  let address := c.regs.pc
  let word ← surely (Machine.onBus (Bus.fetch address))
  surely (Machine.modifyCpu (·.begin))
  let start : Cursor := { pc := (← surely Machine.getCpu).regs.pc }
  let (instruction, cursor) ← requests ((decode address word c.status).run start)
  surely (Machine.modifyCpu (·.continueAt cursor))
  match instruction with
  | none => return .error (.unimplementedOpcode address word)
  | some instruction =>
    if instruction.redirects then surely (Machine.modifyCpu (·.redirect))
    return .ok instruction

/-- Ends an instruction: the high flag, the trace exception, the count and the lockout. -/
def finish (c : Cpu) (wasHigh : Bool) : Option Cpu := do
  let c := (c.modifyStatus fun s => { s with h := s.h ^^ wasHigh }).noteLength c.length
  let c ← raiseIf c (c.status.t && c.status.p && !c.delay.isPending) .trace
  let retired ← unsigned 64 (c.retired + 1)
  return { c with retired, lockout := max (c.lockout - 1) Cpu.lockoutFloor }

/-- Completes an instruction, and looks for interrupts if they are not held back. -/
def complete (wasHigh : Bool) : Attempt β Unit := do
  tryCpu (finish · wasHigh)
  if (← surely Machine.getCpu).lockout = 0 then checkInterrupts

/-- Executes one instruction, or stops with a fault. -/
def executeOne (span : Span) : Attempt β (Except Fault Unit) := do
  let wasHigh := (← surely Machine.getCpu).status.h
  match ← fetchNext with
  | .error fault =>
    surely (Machine.modifyCpu (·.stop fault))
    return .error fault
  | .ok instruction =>
    execute span instruction
    complete wasHigh
    return .ok ()

omit [Bus β] in
/-- Requests that are made without fail are those of the bus. -/
lemma Does.requests {α : Type} {x : StateT β Option α} {y : StateM β α}
    (made : ∀ bus, x.run bus = some (y.run bus)) :
    Does span n n (requests x) (Machine.onBus y) :=
  fun b s => ⟨proceeds (made b.bus) rfl, s⟩

/-- The fetch of an instruction never fails. -/
lemma fetchNext_does :
    Does span n n (fetchNext : Attempt β (Except Fault Instruction)) Machine.fetchNext := by
  refine .bind .getCpu fun c => .bind (.onBus _) fun word => ?_
  refine Does.seq (m := n) (.modifyCpu fun s => s.quiet rfl rfl rfl) (.bind .getCpu fun begun =>
    .bind (.requests (decode_decodes c.regs.pc word c.status _)) ?_)
  rintro ⟨found, cursor⟩
  refine Does.seq (m := n) (.modifyCpu fun s => s.quiet rfl rfl rfl) ?_
  cases found with
  | none => exact .pure _
  | some i =>
    dsimp only
    split
    · refine .seq (.modifyCpu fun {c} s => ?_) (.pure _)
      rw [Cpu.redirect_eq]
      exact s.quiet rfl rfl rfl
    · exact .pure _

/-- The end of an instruction never fails. -/
lemma finish_gives (s : Sound span (n + 1) c) (counted : c.retired + 1 < 2 ^ 64) (wasHigh : Bool) :
    Gives span n (finish c wasHigh) (c.finish wasHigh) := by
  have flipped := s.modifyStatus fun s => { s with h := s.h ^^ wasHigh }
  refine .bind (raiseIf_gives (flipped.modifyStatus _) _ .trace) fun s => ?_
  have retired : (c.finish wasHigh).retired < 2 ^ 64 := by
    rw [Cpu.finish_retired]
    exact counted
  exact .after (unsigned_eq retired) (.pure (s.quiet rfl rfl rfl))

/-- Completing an instruction enters the trace handler, an interrupt, or both. -/
lemma complete_succeeds {b : Machine β} (s : Sound span (n + 2) b.cpu)
    (counted : b.cpu.retired + 1 < 2 ^ 64) (wasHigh : Bool) :
    (complete wasHigh).run b = some ((Machine.complete wasHigh).run b) ∧
      Sound span n ((Machine.complete wasHigh).run b).2.cpu := by
  have finished := finish_gives s counted wasHigh
  have looking : Does span (n + 1) n
      (surely Machine.getCpu >>= fun c => if c.lockout = 0 then checkInterrupts else pure () : Attempt β Unit)
      (Machine.getCpu >>= fun c => if c.lockout = 0 then Machine.checkInterrupts else pure ()) := by
    refine .bind .getCpu fun c => ?_
    split
    · exact checkInterrupts_does
    · exact Does.less (.pure ())
  obtain ⟨looked, s⟩ := @looking ⟨b.cpu.finish wasHigh, b.bus⟩ finished.sound
  exact ⟨proceeds (proceeds finished.eq rfl) looked, s⟩

/-- A processor at the start of an instruction. -/
structure Ready (span : Span) (c : Cpu) : Prop extends Sound span 4 c where
  counted : c.retired ≤ 2 ^ 62 + c.cycles

/-- The count of instructions has room for one more. -/
lemma Ready.uncounted {span : Span} {c : Cpu} (ready : Ready span c) : c.retired + 1 < 2 ^ 64 := by
  have early := (now_eq ready.toSound).2
  have counted := ready.counted
  omega

/-- An instruction cycle makes at most four charges: two to execute, and two to complete. -/
theorem executeOne_succeeds {b : Machine β} (ready : Ready span b.cpu) :
    (executeOne span).run b = some (Machine.executeOne.run b) ∧
      Sound span 0 (Machine.executeOne.run b).2.cpu := by
  obtain ⟨fetch, s⟩ := fetchNext_does ready.toSound
  obtain ⟨fault, c, fetched, stops⟩ | ⟨i, c, fetched, completes⟩ := b.executeOne_cases
  · rw [fetched] at fetch s
    rw [stops]
    exact ⟨proceeds fetch rfl, (s.less (Nat.zero_le 4)).quiet rfl rfl rfl⟩
  · have retired := (Cpu.retired_invariant _).fetchNext (m := b) rfl
    have sized : i.Sized :=
      b.fetchNext_finds (Decode.decode_sized _ _ _) (by rw [fetched]) i rfl
    rw [fetched] at fetch s retired
    -- no handler counts instructions: the count on completion is that at the start
    obtain ⟨executed, s⟩ := execute_does (n := 2) (by decide) i sized s
    have kept := (Cpu.retired_invariant _).execute i (fun _ _ _ p => p) retired
    have uncounted := ready.uncounted
    rw [← kept] at uncounted
    obtain ⟨completed, s⟩ := complete_succeeds s uncounted b.cpu.status.h
    rw [completes]
    exact ⟨proceeds fetch (proceeds executed (proceeds completed rfl)), s⟩

/-! ## Slices -/

/-- Executes instructions as long as some of the budget is left. -/
def executeWhile (span : Span) : Nat → Attempt β (Except Fault Unit)
  | 0 => return .ok ()
  | fuel + 1 => do
    match ← executeOne span with
    | .error fault => return .error fault
    | .ok () => if 0 < (← surely Machine.getCpu).remaining then executeWhile span fuel else return .ok ()

/-- Runs a slice of so many cycles, or gives the fault that has been latched. -/
def slice (cycles : Nat) : Attempt β (Except Fault Nat) := do
  let c ← surely Machine.getCpu
  match c.fault with
  | some fault => return .error fault
  | none =>
    if cycles = 0 then return .ok 0
    else
      let budget := min cycles Cpu.maxBudget
      surely (Machine.modifyCpu (·.openSlice budget))
      checkInterrupts
      let result ← executeWhile ⟨c.cycles, budget⟩ budget
      let consumed ← compute (signed 64 (budget - (← surely Machine.getCpu).remaining))
      let total ← compute (unsigned 64 (c.cycles + consumed.toNat))
      surely (Machine.modifyCpu fun c => { c with cycles := total, remaining := 0 })
      return result.map fun () => consumed.toNat

/-- Runs a slice of one instruction. -/
def step : Attempt β (Except Fault Nat) := slice 1

omit [Bus β] in
/-- The loop goes on with what an instruction leaves of the budget. -/
lemma ite_run {α : Type} {M : Type → Type} [Monad M] (p : Prop) [Decidable p]
    (x y : StateT (Machine β) M α) (b : Machine β) :
    (if p then x else y).run b = if p then x.run b else y.run b := by
  split <;> rfl

omit [Bus β] in
/-- What follows an action that cannot fail is run on what that leaves. -/
lemma run_surely {α γ : Type} (action : Exec β α) (f : α → Attempt β γ) (b : Machine β) :
    (surely action >>= f).run b = (f (action.run b).1).run (action.run b).2 := rfl

omit [Bus β] in
/-- What follows a computation is run with its result. -/
lemma run_compute {α γ : Type} {x : Option α} {a : α} (computed : x = some a) (f : α → Attempt β γ)
    (b : Machine β) : (compute x >>= f).run b = (f a).run b := by
  rw [computed]
  rfl

/-- By induction on the fuel: an instruction that leaves some of the budget leaves room for another. -/
lemma executeWhile_succeeds (fuel : Nat) : ∀ {b : Machine β}, Ready span b.cpu →
    (executeWhile span fuel).run b = some ((Machine.executeWhile fuel).run b) ∧
      Sound span 0 ((Machine.executeWhile fuel).run b).2.cpu := by
  induction fuel with
  | zero => exact fun ready => ⟨rfl, ready.toSound.less (Nat.zero_le 4)⟩
  | succ fuel ih =>
    intro b ready
    obtain ⟨executed, s⟩ := executeOne_succeeds ready
    have loop := Machine.executeWhile_succ fuel b
    rcases run : Machine.executeOne.run b with ⟨fault | _, b'⟩
    · rw [run] at executed s loop
      rw [loop]
      exact ⟨proceeds executed rfl, s⟩
    · rw [run] at executed s loop
      have goes := loop.trans (ite_run (0 < b'.cpu.remaining) (Machine.executeWhile fuel) (pure (.ok ())) b')
      have checked : (executeWhile span (fuel + 1)).run b = if 0 < b'.cpu.remaining then
          (executeWhile span fuel).run b' else (pure (.ok ()) : Attempt β (Except Fault Unit)).run b' := by
        refine proceeds executed ?_
        exact ite_run (0 < b'.cpu.remaining) (executeWhile span fuel) (pure (.ok ())) b'
      rw [goes, checked]
      by_cases left : 0 < b'.cpu.remaining
      · have paced := Machine.executeOne_paced run
        -- the invariant of the loop: what is left of the budget is positive, and the room is for debts
        have next : Ready span b'.cpu := {
          toSound := { s with
            room := by
              show (4 * 4608 : Int) ≤ b'.cpu.remaining + 2 ^ 15
              omega }
          counted := by
            have counted := ready.counted
            have slower := paced.slower
            omega }
        rw [if_pos left, if_pos left]
        exact ih next
      · rw [if_neg left, if_neg left]
        exact ⟨rfl, s⟩

/-- What a slice does: nothing after a fault or without a budget. -/
lemma slice_eq (m : Machine β) (cycles : Nat) :
    (slice cycles).run m =
      (match m.cpu.fault with
        | some fault => pure (.error fault)
        | none =>
          if cycles = 0 then pure (.ok 0)
          else do
            let budget := min cycles Cpu.maxBudget
            surely (Machine.modifyCpu (·.openSlice budget))
            checkInterrupts
            let result ← executeWhile ⟨m.cpu.cycles, budget⟩ budget
            let consumed ← compute (signed 64 (budget - (← surely Machine.getCpu).remaining))
            let total ← compute (unsigned 64 (m.cpu.cycles + consumed.toNat))
            surely (Machine.modifyCpu fun c => { c with cycles := total, remaining := 0 })
            return result.map fun () => consumed.toNat : Attempt β (Except Fault Nat)).run m := rfl

/-- A processor between slices. -/
structure Rests (c : Cpu) : Prop where
  regular : c.timer.Regular
  idle : c.remaining = 0
  counted : c.retired ≤ 2 ^ 62 + c.cycles

/-- A slice opens with room for one more charge than an instruction makes. -/
lemma Rests.opens {m : Machine β} {cycles : Nat} (rests : Rests m.cpu) (short : cycles ≤ 2 ^ 62)
    (early : m.cpu.cycles + cycles ≤ 2 ^ 63) :
    checkInterrupts.run ⟨m.cpu.openSlice (min cycles Cpu.maxBudget), m.bus⟩ =
        some ((), Machine.opened cycles m) ∧
      Ready ⟨m.cpu.cycles, min cycles Cpu.maxBudget⟩ (Machine.opened cycles m).cpu := by
  have budget : min cycles Cpu.maxBudget ≤ cycles := Nat.min_le_left _ _
  have most : 2 ^ 62 ≤ Cpu.maxBudget := by decide
  have sound : Sound ⟨m.cpu.cycles, min cycles Cpu.maxBudget⟩ 5
      (m.cpu.openSlice (min cycles Cpu.maxBudget)) := {
    regular := rests.regular
    balanced := rfl
    started := Nat.le_refl _
    early := by
      show m.cpu.cycles + min cycles Cpu.maxBudget ≤ _
      omega
    short := by
      show min cycles Cpu.maxBudget ≤ _
      omega
    room := by
      show (5 * 4608 : Int) ≤ (min cycles Cpu.maxBudget : Nat) + 2 ^ 15
      omega }
  obtain ⟨looked, sound⟩ := @checkInterrupts_does _ 4 β _
    ⟨m.cpu.openSlice (min cycles Cpu.maxBudget), m.bus⟩ sound
  have paced := Machine.opened_paced cycles m
  refine ⟨looked, sound, ?_⟩
  have counted := rests.counted
  have slower := paced.slower
  show (Machine.opened cycles m).cpu.retired ≤ _
  omega

/-- A slice that ends early enough completes, and is late by less than four charges. -/
theorem slice_succeeds {m : Machine β} {cycles : Nat} (rests : Rests m.cpu) (short : cycles ≤ 2 ^ 62)
    (early : m.cpu.cycles + cycles ≤ 2 ^ 63) :
    (slice cycles).run m = some ((Machine.slice cycles).run m) ∧
      ((Machine.slice cycles).run m).2.cpu.timer.Regular ∧
      ((Machine.slice cycles).run m).2.cpu.remaining = 0 ∧
      ((Machine.slice cycles).run m).2.cpu.cycles ≤ m.cpu.cycles + cycles + 2 ^ 15 := by
  have late : m.cpu.cycles ≤ m.cpu.cycles + cycles + 2 ^ 15 := by omega
  have checked := slice_eq m cycles
  cases running : m.cpu.fault with
  | some fault =>
    rw [running] at checked
    rw [Machine.slice_stopped running]
    exact ⟨checked, rests.regular, rests.idle, late⟩
  | none =>
    rw [running] at checked
    dsimp only at checked
    by_cases zero : cycles = 0
    · subst zero
      rw [Machine.slice_zero running]
      exact ⟨checked, rests.regular, rests.idle, late⟩
    · rw [if_neg zero] at checked
      obtain ⟨opens, ready⟩ := rests.opens short early
      obtain ⟨executed, s⟩ := executeWhile_succeeds (min cycles Cpu.maxBudget) ready
      rcases ran : (Machine.executeWhile (min cycles Cpu.maxBudget)).run (Machine.opened cycles m)
        with ⟨result, e⟩
      rw [ran] at executed s
      -- at its end the slice is overdrawn by no more than the room that the last instruction had
      have balanced : (e.cpu.cycles : Int) + e.cpu.remaining =
        m.cpu.cycles + (min cycles Cpu.maxBudget : Nat) := s.balanced
      have started : m.cpu.cycles ≤ e.cpu.cycles := s.started
      have budget := s.short
      have room : (0 * 4608 : Int) ≤ e.cpu.remaining + 2 ^ 15 := s.room
      have fits := (now_eq s).2
      have spent : (((min cycles Cpu.maxBudget : Nat) : Int) - e.cpu.remaining).toNat =
        e.cpu.cycles - m.cpu.cycles := by omega
      have consumed := signed_eq (w := 64) (n := (min cycles Cpu.maxBudget : Nat) - e.cpu.remaining)
        (by omega) (by omega)
      have total := unsigned_eq (w := 64)
        (n := m.cpu.cycles + (((min cycles Cpu.maxBudget : Nat) : Int) - e.cpu.remaining).toNat)
        (by omega)
      rw [checked, Machine.slice_run running zero ran]
      refine ⟨?_, s.regular, rfl, ?_⟩
      · refine (run_surely _ _ _).trans (proceeds opens (proceeds executed ((run_surely _ _ _).trans
          ((run_compute consumed _ _).trans ((run_compute total _ _).trans ?_)))))
        have closed : m.cpu.cycles + (e.cpu.cycles - m.cpu.cycles) = e.cpu.cycles := by omega
        rw [spent, closed]
        rfl
      · show e.cpu.cycles ≤ _
        omega

/-! ## Between slices -/

/-- Makes the compare match pending, if it has been reached, or schedules another callback. -/
def latchMatch (span : Span) (c : Cpu) (ticks : Word) : Option Cpu :=
  if (ticks - c.regs.global Global.tcr).msb then reschedule span c
  else some { c with timer := { c.timer with pending := true } }

/-- Serves the deadline of the timer, if it has one: a reload first, and the compare match after it. -/
def timerExpired (span : Span) (c : Cpu) : Option Cpu :=
  match c.timer.takeDeadline with
  | (none, _) => some c
  | (some deadline, timer) => do
    let c := { c with timer }
    let now ← now span c
    let c ← (if deadline.reloadPrescale then applyPrescale span c (c.regs.global Global.tpr) else some c)
    latchMatch span c (← ticksAt c.timer now)

/-- Serves the timer if its deadline is due. -/
def serviceTimer (span : Span) (c : Cpu) : Option Cpu :=
  match c.nextDeadline with
  | some cycle => do if cycle ≤ (← now span c) then timerExpired span c else return c
  | none => some c

/-- Starts the reset handler. There is no budget between slices, so the entry goes to the count of cycles. -/
def enterReset (c : Cpu) : Option Cpu := do
  let c := (c.setPc (← vector c.entry TrapNumber.reset)).modifyStatus Cpu.resetStatus
  let c ← fillFrame c 0 [c.returnPc, c.status.bits]
  let scale ← amount 64 c.timer.scale.toNat
  let cycles ← unsigned 64 (c.cycles + (CostClass.entrySequence.cycles scale).toNat)
  return { c with cycles }

/-- Resets the processor, with the control registers written as by a program. -/
def reset (c : Cpu) : Option Cpu := do
  let c := { c with
    timer := { c.timer.resetPeriod with pending := false }
    entry := .mem3
    delay := {}
    fault := none }
  let span := Span.between c
  let c ← writeGlobal span c Global.bcr (BitVec.allOnes 32)
  let c ← writeGlobal span c Global.mcr (BitVec.allOnes 32)
  let c ← writeGlobal span c Global.fcr (BitVec.allOnes 32)
  let c ← writeGlobal span c Global.tpr Cpu.resetPrescaler
  enterReset c

/-- The compare match is latched or scheduled anew without fail. -/
lemma latchMatch_gives (s : Sound span n c) (ticks : Word) :
    Gives span n (latchMatch span c ticks)
      (if (ticks - c.regs.global Global.tcr).msb then c.reschedule
        else { c with timer := { c.timer with pending := true } }) := by
  unfold latchMatch
  split
  · exact reschedule_gives s
  · exact .pure (s.keep (s.regular.keep rfl rfl rfl) rfl rfl)

/-- The deadline of the timer is served without fail. -/
lemma timerExpired_gives (s : Sound span n c) : Gives span n (timerExpired span c) c.timerExpired := by
  unfold timerExpired Cpu.timerExpired Timer.takeDeadline
  cases c.timer.deadline with
  | none => exact .pure s
  | some deadline =>
    have taken : Sound span n { c with timer := { c.timer with deadline := none } } :=
      s.keep (s.regular.keep rfl rfl rfl) rfl rfl
    obtain ⟨due, reloads⟩ := deadline
    refine .after (now_eq taken).1 ?_
    cases reloads with
    | false =>
      exact .bind (.pure taken) fun s => .after (ticksAt_eq s.regular _) (latchMatch_gives s _)
    | true =>
      exact .bind (applyPrescale_gives taken _) fun s =>
        .after (ticksAt_eq s.regular _) (latchMatch_gives s _)

/-- The timer is served without fail. -/
lemma serviceTimer_gives (s : Sound span n c) : Gives span n (serviceTimer span c) c.serviceTimer := by
  unfold serviceTimer Cpu.serviceTimer
  cases c.nextDeadline with
  | none => exact .pure s
  | some due =>
    refine .after (now_eq s).1 ?_
    dsimp only
    split
    · exact timerExpired_gives s
    · exact .pure s

/-- The reset handler is always entered. -/
lemma enterReset_eq (s : Sound span n c) :
    let started := (c.setPc (c.entry.vector TrapNumber.reset)).modifyStatus Cpu.resetStatus
    let filled := started.fillFrame 0 [started.returnPc, started.status.bits]
    enterReset c = some { filled with cycles := filled.cycles + filled.cost .entrySequence } := by
  intro started filled
  have jumped : Sound span n started := s.quiet rfl rfl rfl
  have gives : Gives span n (fillFrame started 0 [started.returnPc, started.status.bits]) filled :=
    fillFrame_gives _ jumped (by simp)
  have scale := gives.sound.regular.scale
  have most := cost_le gives.sound.regular .entrySequence
  have early := (now_eq gives.sound).2
  have fits : filled.cycles + filled.cost .entrySequence < 2 ^ 64 := by omega
  exact proceeds (vector_eq _ _) (proceeds gives.eq (proceeds (amount_eq (by omega))
    (proceeds (unsigned_eq fits) rfl)))

/-- A reset between slices never fails. -/
lemma reset_eq (s : Sound (.between c) n c) : reset c = some c.reset := by
  let cleared : Cpu := { c with
    timer := { c.timer.resetPeriod with pending := false }
    entry := .mem3
    delay := {}
    fault := none }
  have most : 2 ≤ 257 := by decide
  have sound : Sound (.between cleared) n cleared :=
    { s with regular := ⟨s.regular.mask, s.regular.scale, Nat.le_refl 2, most⟩ }
  have control := writeGlobal_gives sound Global.bcr (BitVec.allOnes 32)
  have memory := writeGlobal_gives control.sound Global.mcr (BitVec.allOnes 32)
  have function := writeGlobal_gives memory.sound Global.fcr (BitVec.allOnes 32)
  have prescaler := writeGlobal_gives function.sound Global.tpr Cpu.resetPrescaler
  exact proceeds control.eq (proceeds memory.eq (proceeds function.eq (proceeds prescaler.eq
    (enterReset_eq prescaler.sound))))

/-- Between slices the accounts balance, and there is room for seven charges. -/
lemma Rests.sound (rests : Rests c) (early : c.cycles ≤ 2 ^ 63 + 2 ^ 16) : Sound (.between c) 7 c where
  regular := rests.regular
  balanced := by
    rw [rests.idle]
    rfl
  started := Nat.le_refl _
  early := early
  short := Nat.zero_le _
  room := by
    rw [rests.idle]
    decide

/-- The timer is served without fail between slices, and the processor is at rest after it. -/
lemma Rests.serves (rests : Rests c) (early : c.cycles ≤ 2 ^ 63 + 2 ^ 16) :
    serviceTimer (.between c) c = some c.serviceTimer ∧ Rests c.serviceTimer := by
  have gives := serviceTimer_gives (rests.sound early)
  obtain ⟨regs, timer, eq⟩ := c.serviceTimer_changes
  refine ⟨gives.eq, gives.sound.regular, ?_, ?_⟩
  · rw [eq]
    exact rests.idle
  · rw [eq]
    exact rests.counted

/-! ## Runs -/

/-- The budget of the next slice: up to the next deadline or the end of the run, and one cycle if the deadline is
overdue. -/
def sliceBudget (c : Cpu) (stop : Nat) : Option Nat := do
  let rest ← difference stop c.cycles
  match c.nextDeadline with
  | some due =>
    if c.cycles < due then return min (← difference due c.cycles) rest
    else return 1
  | none => return rest

/-- Runs slices until a cycle, each after the timer is served. -/
def runUntil (stop : Nat) : Nat → Attempt β (Except Fault Unit)
  | 0 => return .ok ()
  | fuel + 1 => do
    if (← surely Machine.getCpu).cycles < stop then
      tryCpu fun c => serviceTimer (.between c) c
      let budget ← compute (sliceBudget (← surely Machine.getCpu) stop)
      match ← slice budget with
      | .error fault => return .error fault
      | .ok _ => runUntil stop fuel
    else return .ok ()

/-- Runs for so many cycles, and tells how many cycles and instructions they were. -/
def run (cycles : Nat) : Attempt β (Except Fault RunOutcome) := do
  let start ← surely Machine.getCpu
  match ← runUntil (min (start.cycles + cycles) Cpu.lastCycle) cycles with
  | .error fault => return .error fault
  | .ok () =>
    tryCpu fun c => serviceTimer (.between c) c
    let c ← surely Machine.getCpu
    let spent ← compute (difference c.cycles start.cycles)
    let completed ← compute (difference c.retired start.retired)
    return .ok ⟨spent, completed⟩

omit [Bus β] in
/-- The budget of a slice is always made, and does not reach beyond the end of the run. -/
lemma sliceBudget_eq {stop : Nat} (before : c.cycles < stop) :
    sliceBudget c stop = some (c.sliceBudget stop) ∧ c.cycles + c.sliceBudget stop ≤ stop := by
  unfold sliceBudget Cpu.sliceBudget
  constructor
  · refine proceeds (difference_eq (Nat.le_of_lt before)) ?_
    cases c.nextDeadline with
    | none => rfl
    | some due =>
      dsimp only
      split
      · exact proceeds (difference_eq (by omega)) rfl
      · rfl
  · split
    · split <;> omega
    · omega

/-- By induction on the fuel: a slice ends no later than a few charges after the last cycle, at rest, and has
counted no more instructions than cycles. -/
lemma runUntil_succeeds {stop : Nat} (early : stop ≤ 2 ^ 63) (fuel : Nat) : ∀ {m : Machine β},
    Rests m.cpu → m.cpu.cycles ≤ 2 ^ 63 + 2 ^ 15 → stop ≤ m.cpu.cycles + 2 ^ 62 →
    (runUntil stop fuel).run m = some ((Machine.runUntil stop fuel).run m) ∧
      Rests ((Machine.runUntil stop fuel).run m).2.cpu ∧
      ((Machine.runUntil stop fuel).run m).2.cpu.cycles ≤ 2 ^ 63 + 2 ^ 15 ∧
      Machine.Paced m ((Machine.runUntil stop fuel).run m).2 := by
  induction fuel with
  | zero => exact fun rests late _ => ⟨rfl, rests, late, .refl _⟩
  | succ fuel ih =>
    intro m rests late near
    have checked : (runUntil stop (fuel + 1)).run m = _ :=
      (run_surely Machine.getCpu _ m).trans (ite_run (m.cpu.cycles < stop) _ _ m)
    by_cases before : m.cpu.cycles < stop
    · obtain ⟨serves, served⟩ := rests.serves (by omega)
      have same := m.served_kept.1
      obtain ⟨budget, within⟩ := sliceBudget_eq (show m.served.cpu.cycles < stop by omega)
      have short : m.served.cpu.sliceBudget stop ≤ 2 ^ 62 := by omega
      obtain ⟨sliced, regular, idle, bounded⟩ := slice_succeeds (m := m.served) served short (by omega)
      have paced := m.served_paced.trans (Machine.slice_paced m.served (m.served.cpu.sliceBudget stop))
      have started := checked.trans ((if_pos before).trans (proceeds (proceeds serves rfl)
        ((run_surely _ _ _).trans ((run_compute budget _ _).trans (proceeds sliced rfl)))))
      rw [started, Machine.runUntil_cut fuel before]
      unfold Machine.cut
      generalize (Machine.slice (m.served.cpu.sliceBudget stop)).run m.served = cut at *
      obtain ⟨result, m'⟩ := cut
      dsimp only at bounded paced
      -- the slice has advanced at least as much as it has counted, which carries the bound on the count
      have advanced := paced.advances
      have counted := rests.counted
      have slower := paced.slower
      have rest : Rests m'.cpu := ⟨regular, idle, by omega⟩
      have reached : m'.cpu.cycles ≤ 2 ^ 63 + 2 ^ 15 := by omega
      cases result with
      | error fault => exact ⟨rfl, rest, reached, paced⟩
      | ok n =>
        obtain ⟨done, rests, late, further⟩ := ih rest reached (by omega)
        exact ⟨done, rests, late, paced.trans further⟩
    · rw [Machine.runUntil_reached fuel before]
      exact ⟨checked.trans (if_neg before), rests, late, .refl m⟩

/-- A run that ends early enough completes. -/
theorem run_succeeds {m : Machine β} {cycles : Nat} (rests : Rests m.cpu) (early : m.cpu.cycles < 2 ^ 62)
    (short : cycles < 2 ^ 62) : (run cycles).run m = some ((Machine.run cycles).run m) := by
  have last : min (m.cpu.cycles + cycles) Cpu.lastCycle ≤ m.cpu.cycles + cycles := Nat.min_le_left _ _
  have ends : min (m.cpu.cycles + cycles) Cpu.lastCycle ≤ 2 ^ 63 := by omega
  obtain ⟨done, rests, late, paced⟩ := runUntil_succeeds ends cycles rests (by omega) (by omega)
  refine (run_surely _ _ _).trans (proceeds done ?_)
  rw [Machine.run_eq]
  rcases ended : (Machine.runUntil (min (m.cpu.cycles + cycles) Cpu.lastCycle) cycles).run m
    with ⟨fault | _, e⟩
  · rfl
  · rw [ended] at rests late paced
    obtain ⟨serves, -⟩ := rests.serves (by omega)
    have counted : m.cpu.retired ≤ e.cpu.retired := paced.counted
    have advanced : m.cpu.cycles ≤ e.cpu.cycles := paced.advances
    obtain ⟨cycles, -, retired⟩ := e.served_kept
    have spent := difference_eq (n := e.served.cpu.cycles) (m := m.cpu.cycles) (by omega)
    have completed := difference_eq (n := e.served.cpu.retired) (m := m.cpu.retired) (by omega)
    exact proceeds (proceeds serves rfl) ((run_surely _ _ _).trans
      ((run_compute spent _ _).trans ((run_compute completed _ _).trans rfl)))

end

end Checked

end E1Machine
