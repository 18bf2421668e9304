import E1Machine.Proofs.Congruence

/-!
# Two machines side by side

Two machines whose processors are related by a congruence and whose buses answer alike stay so when both
execute the same instruction. The buses may be of different types: all that counts is that each request
of the processor gives the same answer on both and keeps a relation between their states.

With one machine on both sides this says that an invariant of the processor survives every instruction,
whatever the bus answers (`Cpu.Invariant.execute`).
-/

namespace E1Machine

/-- Two requests that give the same answer and keep a relation of bus states. -/
def Answers {β β' α : Type} (S : β → β' → Prop) (x : StateM β α) (y : StateM β' α) : Prop :=
  ∀ ⦃b b'⦄, S b b' → (x.run b).1 = (y.run b').1 ∧ S (x.run b).2 (y.run b').2

/-- A relation of bus states that every request of the processor keeps, with the same answer. -/
structure AnswersAlike {β β' : Type} [Bus β] [Bus β'] (S : β → β' → Prop) : Prop where
  readByte (addr : Word) : Answers S (Bus.readByte addr) (Bus.readByte addr)
  readHalf (addr : Word) : Answers S (Bus.readHalf addr) (Bus.readHalf addr)
  readWord (addr : Word) : Answers S (Bus.readWord addr) (Bus.readWord addr)
  writeByte (addr : Word) (value : Byte) :
    Answers S (Bus.writeByte addr value) (Bus.writeByte addr value)
  writeHalf (addr : Word) (value : Half) :
    Answers S (Bus.writeHalf addr value) (Bus.writeHalf addr value)
  writeWord (addr value : Word) : Answers S (Bus.writeWord addr value) (Bus.writeWord addr value)
  ioReadWord (addr : Word) :
    Answers S (Bus.ioReadWord (ioAddress addr)) (Bus.ioReadWord (ioAddress addr))
  ioWriteWord (addr value : Word) :
    Answers S (Bus.ioWriteWord (ioAddress addr) value) (Bus.ioWriteWord (ioAddress addr) value)
  fetch (addr : Word) : Answers S (Bus.fetch addr) (Bus.fetch addr)
  acknowledge (line : InterruptLine) : Answers S (Bus.acknowledge line) (Bus.acknowledge line)

/-- A request is answered alike on the same bus. -/
lemma Answers.refl {β α : Type} (x : StateM β α) : Answers Eq x x := by
  rintro b _ rfl
  exact ⟨rfl, rfl⟩

/-- The same bus answers alike. -/
lemma AnswersAlike.refl {β : Type} [Bus β] : AnswersAlike (Eq : β → β → Prop) where
  readByte _ := .refl _
  readHalf _ := .refl _
  readWord _ := .refl _
  writeByte _ _ := .refl _
  writeHalf _ _ := .refl _
  writeWord _ _ := .refl _
  ioReadWord _ := .refl _
  ioWriteWord _ _ := .refl _
  fetch _ := .refl _
  acknowledge _ := .refl _

/-- Whether an instruction reads the tick count. -/
def Instruction.readsTicks : Instruction → Bool
  | .move _ src => src.isTicks
  | _ => false

/-- Whether an instruction leaves the target of a delayed branch. -/
def Instruction.delays : Instruction → Bool
  | .delayedBranch _ => true
  | _ => false

namespace Machine

/-- Two actions with related results, which lead from one relation of processors to another and keep a
relation of buses. -/
def Related {α α' β β' : Type} (R Q : Cpu → Cpu → Prop) (S : β → β' → Prop) (V : α → α' → Prop)
    (x : Exec β α) (y : Exec β' α') : Prop :=
  ∀ ⦃m m'⦄, R m.cpu m'.cpu → S m.bus m'.bus →
    V (x.run m).1 (y.run m').1 ∧ Q (x.run m).2.cpu (y.run m').2.cpu ∧
      S (x.run m).2.bus (y.run m').2.bus

section Actions

variable {α α' γ γ' β β' : Type} {P R Q : Cpu → Cpu → Prop} {S : β → β' → Prop}
  {V : α → α' → Prop} {W : γ → γ' → Prop}

/-- Related answers that cost nothing are related. -/
lemma Related.pure {a : α} {a' : α'} (v : V a a') :
    Related R R S V (Pure.pure a : Exec β α) (Pure.pure a' : Exec β' α') :=
  fun _ _ r s => ⟨v, r, s⟩

/-- Related actions stay related when related answers are passed on. -/
lemma Related.bind {x : Exec β α} {y : Exec β' α'} {f : α → Exec β γ} {g : α' → Exec β' γ'}
    (hx : Related R P S V x y) (hf : ∀ a a', V a a' → Related P Q S W (f a) (g a')) :
    Related R Q S W (x >>= f) (y >>= g) := by
  intro m m' r s
  obtain ⟨v, r, s⟩ := hx r s
  exact hf _ _ v r s

/-- Actions with equal results go on alike. -/
lemma Related.next {x : Exec β α} {y : Exec β' α} {f : α → Exec β γ} {g : α → Exec β' γ'}
    (hx : Related R P S Eq x y) (hf : ∀ a, Related P Q S W (f a) (g a)) :
    Related R Q S W (x >>= f) (y >>= g) :=
  .bind hx fun a _ e => e ▸ hf a

/-- Looking at related processors gives related answers. -/
lemma Related.getCpu : Related R R S R (getCpu : Exec β Cpu) (getCpu : Exec β' Cpu) :=
  fun _ _ r s => ⟨r, r, s⟩

/-- A change that leads related processors to related ones is related to itself. -/
lemma Related.modifyCpu {f g : Cpu → Cpu} (hf : ∀ {c d}, R c d → Q (f c) (g d)) :
    Related R Q S Eq (modifyCpu f : Exec β Unit) (modifyCpu g : Exec β' Unit) :=
  fun _ _ r s => ⟨rfl, hf r, s⟩

/-- A request that is answered alike is a related action. -/
lemma Related.onBus {x : StateM β α} {y : StateM β' α} (hx : Answers S x y) :
    Related R R S Eq (onBus x) (onBus y) := by
  intro m m' r s
  obtain ⟨e, s⟩ := hx s
  exact ⟨e, r, s⟩

/-- What follows a request is given the same answer on both sides. -/
lemma Related.ask {x : StateM β α} {y : StateM β' α} {f : α → Exec β γ} {g : α → Exec β' γ'}
    (hx : Answers S x y) (hf : ∀ a, Related R Q S W (f a) (g a)) :
    Related R Q S W (Machine.onBus x >>= f) (Machine.onBus y >>= g) :=
  .next (.onBus hx) hf

/-- Related actions one after another are related. -/
lemma Related.seq {x : Exec β Unit} {y : Exec β' Unit} {f : Exec β γ} {g : Exec β' γ'}
    (hx : Related R P S Eq x y) (hf : Related P Q S W f g) :
    Related R Q S W (x >>= fun _ => f) (y >>= fun _ => g) :=
  .next hx fun _ => hf

/-- An action that is related to itself is so when it is repeated. -/
lemma Related.times {x : Exec β Unit} {y : Exec β' Unit} (hx : Related R R S Eq x y) (n : Nat) :
    Related R R S Eq (times n x) (times n y) := by
  induction n with
  | zero => exact .pure rfl
  | succ n ih => exact .seq hx ih

end Actions

/-! ## Transfers and frames -/

section Effects

variable {β β' : Type} {R Q : Cpu → Cpu → Prop} {S : β → β' → Prop}

/-- A write of a register is a related action. -/
lemma write_related (h : Cpu.Congruence R) (o : Operand) (value : Word) :
    Related R R S Eq (modifyCpu (·.write o value) : Exec β Unit)
      (modifyCpu (·.write o value) : Exec β' Unit) :=
  .modifyCpu fun r => h.write r o value

variable [Bus β] [Bus β'] (hS : AnswersAlike S)
include hS

/-- A write of a word to memory is a related action. -/
lemma writeWord_related (addr value : Word) :
    Related R R S Eq (writeWord addr value : Exec β Unit) (writeWord addr value : Exec β' Unit) :=
  .onBus (hS.writeWord _ _)

section Kept

variable (h : Cpu.Congruence R)
include h

/-- A load is a related action in every form. -/
lemma loadData_related (form : DataForm) (addr : Word) (data : Operand) :
    Related R R S Eq (loadData form addr data : Exec β Unit) (loadData form addr data) := by
  cases form with
  | byte signed => exact .ask (hS.readByte addr) fun value => write_related h data _
  | half signed => exact .ask (hS.readHalf _) fun value => write_related h data _
  | word => exact .ask (hS.readWord _) fun value => write_related h data value
  | double =>
    exact .ask (hS.readWord _) fun high => .ask (hS.readWord _) fun low =>
      .modifyCpu fun r => h.writePair r data _
  | ioWord => exact .ask (hS.ioReadWord _) fun value => write_related h data value
  | ioDouble =>
    exact .ask (hS.ioReadWord _) fun high => .ask (hS.ioReadWord _) fun low =>
      .modifyCpu fun r => h.writePair r data _
  | stack =>
    refine .bind .getCpu fun c d r => ?_
    rw [h.regs_eq r]
    split
    · exact .ask (hS.readWord _) fun value => write_related h data value
    · exact write_related h data _

/-- A store is a related action in every form. -/
lemma storeData_related (form : DataForm) (addr : Word) (data : Operand) :
    Related R R S Eq (storeData form addr data : Exec β Unit) (storeData form addr data) := by
  refine .bind .getCpu fun c d r => ?_
  rw [h.stored r]
  have raised (high : Word) : Related R R S Eq
      (modifyCpu (·.raiseIf (form.loses high) .range) : Exec β Unit)
      (modifyCpu (·.raiseIf (form.loses high) .range) : Exec β' Unit) :=
    .modifyCpu fun r => h.raiseIf r _ .range
  cases form with
  | byte signed => exact .seq (.onBus (hS.writeByte _ _)) (raised _)
  | half signed => exact .seq (.onBus (hS.writeHalf _ _)) (raised _)
  | word => exact .seq (writeWord_related hS _ _) (raised _)
  | double =>
    exact .seq (writeWord_related hS _ _) (.seq (writeWord_related hS _ _) (raised _))
  | ioWord => exact .seq (.onBus (hS.ioWriteWord _ _)) (raised _)
  | ioDouble =>
    exact .seq (.onBus (hS.ioWriteWord _ _)) (.seq (.onBus (hS.ioWriteWord _ _)) (raised _))
  | stack =>
    dsimp only
    rw [h.regs_eq r]
    split
    · exact .seq (writeWord_related hS _ _) (raised _)
    · exact .seq (.modifyCpu fun r => h.setLocalAt _ _ r) (raised _)

/-- A spill is a related action. -/
lemma spill_related : Related R R S Eq (spill : Exec β Unit) (spill : Exec β' Unit) := by
  refine .bind .getCpu fun c d r => ?_
  dsimp only
  rw [h.regs_eq r]
  exact .seq (.onBus (hS.writeWord _ _)) (.modifyCpu fun r => h.setSp _ r)

/-- A refill is a related action. -/
lemma refill_related : Related R R S Eq (refill : Exec β Unit) (refill : Exec β' Unit) := by
  refine .bind .getCpu fun c d r => ?_
  dsimp only
  rw [h.regs_eq r]
  exact .seq (.modifyCpu fun r => h.setSp _ r)
    (.ask (hS.readWord _) fun value => .modifyCpu fun r => h.setLocalAt _ value r)

end Kept

section Charged

variable (h : Cpu.Charging R Q)
include h

/-- A load is charged once the data is moved. -/
lemma load_related (form : DataForm) (addressing : Addressing) (data : Operand) :
    Related R Q S Eq (load form addressing data : Exec β Unit) (load form addressing data) := by
  refine .bind .getCpu fun c d r => ?_
  dsimp only
  rw [h.before.transferAddress r]
  exact .seq (.modifyCpu fun r => h.before.advanceAddress r _ addressing)
    (.seq (loadData_related hS h.before form _ data)
      (.modifyCpu fun r => h.charge r form.cost))

/-- A store is charged before the data is moved. -/
lemma store_related (form : DataForm) (addressing : Addressing) (data : Operand) :
    Related R Q S Eq (store form addressing data : Exec β Unit) (store form addressing data) := by
  refine .bind .getCpu fun c d r => ?_
  dsimp only
  rw [h.before.transferAddress r]
  exact .seq (.modifyCpu fun r => h.charge r form.cost)
    (.seq (storeData_related hS h.after form _ data)
      (.modifyCpu fun r => h.after.advanceAddress r _ addressing))

/-- Opening a frame is charged after its spills. -/
lemma frame_related (back length : BitVec 4) :
    Related R Q S Eq (frame back length : Exec β Unit) (frame back length) := by
  refine .seq (.modifyCpu fun r => h.before.reframe r back length)
    (.bind .getCpu fun c d r => ?_)
  have count : c.spillCount = d.spillCount := by
    unfold Cpu.spillCount
    rw [h.before.regs_eq r, h.before.status_eq r]
  dsimp only
  rw [count, h.before.regs_eq r]
  exact .seq (.times (spill_related hS h.before) _)
    (.modifyCpu fun r => h.charge (h.before.raiseIf r _ .frame) .controlTransfer)

/-- A return is charged after its refills. -/
lemma ret_related (src : Operand) : Related R Q S Eq (ret src : Exec β Unit) (ret src) := by
  refine .bind .getCpu fun old old' r => ?_
  rw [h.before.read r, h.before.read r, h.before.status_eq r]
  refine .seq (.modifyCpu fun r => h.before.resume _ _ r) (.bind .getCpu fun c d r => ?_)
  have count : c.refillCount = d.refillCount := by
    unfold Cpu.refillCount
    rw [h.before.regs_eq r, h.before.status_eq r]
  rw [count]
  refine .seq (.times (refill_related hS h.before) _) (.modifyCpu fun r => ?_)
  rw [h.before.status_eq r]
  exact h.charge (h.before.raiseIf r _ .privilege) .controlTransfer

/-! ## Instructions -/

/-- Both machines execute an instruction alike. Reading the tick count and leaving a delayed branch are
the two effects that a relation must allow by itself. -/
lemma execute_related (i : Instruction) (ticks : i.readsTicks → Cpu.KeepsTicks R)
    (delay : i.delays → Cpu.KeepsDelay R) :
    Related R Q S Eq (execute i : Exec β Unit) (execute i : Exec β' Unit) := by
  cases i with
  | check dst src => exact .modifyCpu fun r => h.check r dst src
  | moveDouble dst src => exact .modifyCpu fun r => h.moveDouble r dst src
  | ret src => exact ret_related hS h src
  | divide dst src signed => exact .modifyCpu fun r => h.divide r dst src signed
  | indexMove dst src scale limit => exact .modifyCpu fun r => h.indexMove r dst src scale limit
  | mask dst src mask => exact .modifyCpu fun r => h.mask r dst src mask
  | sum dst src addend signed => exact .modifyCpu fun r => h.sum r dst src addend signed
  | add dst src signed => exact .modifyCpu fun r => h.add r dst src signed
  | sub dst src signed => exact .modifyCpu fun r => h.sub r dst src signed
  | neg dst src signed => exact .modifyCpu fun r => h.neg r dst src signed
  | addCarry dst src => exact .modifyCpu fun r => h.addCarry r dst src
  | subCarry dst src => exact .modifyCpu fun r => h.subCarry r dst src
  | round dst signed => exact .modifyCpu fun r => h.round r dst signed
  | compare dst src => exact .modifyCpu fun r => h.compare r dst src
  | testBits dst src => exact .modifyCpu fun r => h.testBits r dst src
  | testZeroByte dst => exact .modifyCpu fun r => h.testZeroByte r dst
  | logical op dst src => exact .modifyCpu fun r => h.logical r op dst src
  | complement dst src => exact .modifyCpu fun r => h.complement r dst src
  | move dst src => exact .modifyCpu fun r => h.move r dst src ticks
  | moveImmediate dst value => exact .modifyCpu fun r => h.moveImmediate r dst value
  | privileged => exact .modifyCpu fun r => h.refuseMove r
  | shift kind dst count => exact .modifyCpu fun r => h.shift r kind dst count
  | shiftDouble kind dst count => exact .modifyCpu fun r => h.shiftDouble r kind dst count
  | leadingZeros dst src => exact .modifyCpu fun r => h.leadingZeros r dst src
  | rotate dst src => exact .modifyCpu fun r => h.rotate r dst src
  | load form addressing data => exact load_related hS h form addressing data
  | store form addressing data => exact store_related hS h form addressing data
  | reservedTransfer address step report =>
    exact .modifyCpu fun r => h.reservedTransfer r address step report
  | multiply kind dst src => exact .modifyCpu fun r => h.multiply r kind dst src
  | set dst value => exact .modifyCpu fun r => h.set r dst value
  | emulate byte dst src => exact .modifyCpu fun r => h.enterEmulation byte dst src r
  | accumulate f dst src => exact .modifyCpu fun r => h.accumulate r f dst src
  | delayedBranch offset => exact .modifyCpu fun r => h.delayedBranch r offset (delay rfl)
  | branch offset => exact .modifyCpu fun r => h.branch r offset
  | fallThrough => exact .modifyCpu fun r => h.charge r .branchNotTaken
  | frame back length => exact frame_related hS h back length
  | call code src addend => exact .modifyCpu fun r => h.call r code src addend
  | trap number condition => exact .modifyCpu fun r => h.trap r number condition
  | undefined report cost => exact .modifyCpu fun r => h.charge (h.before.report report r) cost
  | reserved report => exact .modifyCpu fun r => h.charge (h.before.report report r) .alu

end Charged

end Effects

end Machine

end E1Machine
