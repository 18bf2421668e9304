import E1Machine.Proofs.Checked.Effects

/-!
# Checked execution

Loads, stores, the register stack and whole instructions, as attempts: actions on a machine that can fail. An
attempt does what an action does if it succeeds from every machine whose processor is sound, with the same
result, and leaves the processor sound.

What is asked of the bus is not checked here: the answers may be any.
-/

namespace E1Machine

/-- What decoding guarantees of the operands whose codes the effects calculate with. -/
def Instruction.Sized : Instruction → Prop
  | .moveDouble dst src => dst.code < 16 ∧ src.code < 16
  | .ret src => src.code < 16
  | .divide dst _ _ | .shiftDouble _ dst _ | .multiply _ dst _ => dst.code < 16
  | .indexMove _ _ scale _ => scale < 4
  | .load _ _ data | .store _ _ data => data.code < 16
  | .emulate _ _ src => src < 16
  | .call code _ _ => code ≤ 16
  | _ => True

namespace Checked

/-! ## Attempts -/

/-- Actions on a machine that can fail. -/
abbrev Attempt (β : Type) := StateT (Machine β) Option

section Attempts

variable {α γ β : Type}

/-- An action that calculates with nothing that could fail. -/
def surely (action : Exec β α) : Attempt β α := fun b => some (action.run b)

/-- Runs a checked function of the processor. -/
def tryCpu (f : Cpu → Option Cpu) : Attempt β Unit := fun b => do
  let cpu ← f b.cpu
  return ((), ⟨cpu, b.bus⟩)

/-- Makes a checked computation. -/
def compute (x : Option α) : Attempt β α := fun b => do
  let a ← x
  return (a, b)

/-- Repeats an attempt. The number of turns that are left is counted up to zero. -/
def times : Nat → Attempt β Unit → Attempt β Unit
  | 0, _ => pure ()
  | n + 1, attempt => do
    attempt
    let _ ← compute (signed 32 (-(n + 1) + 1))
    times n attempt

/-- An attempt that succeeds on sound processors, as an action does, and leaves sound processors. -/
def Does (span : Span) (n m : Nat) (attempt : Attempt β α) (action : Exec β α) : Prop :=
  ∀ ⦃b : Machine β⦄, Sound span n b.cpu →
    attempt.run b = some (action.run b) ∧ Sound span m (action.run b).2.cpu

variable {span : Span} {n m k : Nat}

/-- A value is returned without fail. -/
lemma Does.pure (a : α) : Does span n n (Pure.pure a : Attempt β α) (Pure.pure a : Exec β α) :=
  fun _ s => ⟨rfl, s⟩

/-- The processor can be looked at without fail. -/
lemma Does.getCpu : Does span n n (surely Machine.getCpu : Attempt β Cpu) Machine.getCpu :=
  fun _ s => ⟨rfl, s⟩

/-- A request is answered without fail. -/
lemma Does.onBus (request : StateM β α) :
    Does span n n (surely (Machine.onBus request) : Attempt β α) (Machine.onBus request) :=
  fun _ s => ⟨rfl, s⟩

/-- A change that keeps processors sound is made without fail. -/
lemma Does.modifyCpu {f : Cpu → Cpu} (keeps : ∀ {c}, Sound span n c → Sound span m (f c)) :
    Does span n m (surely (Machine.modifyCpu f) : Attempt β Unit) (Machine.modifyCpu f) :=
  fun _ s => ⟨rfl, keeps s⟩

/-- A checked function that succeeds on sound processors is run without fail. -/
lemma Does.tryCpu {f : Cpu → Option Cpu} {g : Cpu → Cpu}
    (gives : ∀ {c}, Sound span n c → Gives span m (f c) (g c)) :
    Does span n m (tryCpu f : Attempt β Unit) (Machine.modifyCpu g) := by
  intro b s
  have given := gives s
  exact ⟨proceeds given.eq rfl, given.sound⟩

/-- An attempt that succeeds may go on with another, whatever its result is. -/
lemma Does.bind {x : Attempt β α} {y : Exec β α} {f : α → Attempt β γ} {g : α → Exec β γ}
    (first : Does span n m x y) (rest : ∀ a, Does span m k (f a) (g a)) :
    Does span n k (x >>= f) (y >>= g) := by
  intro b s
  obtain ⟨done, s⟩ := first s
  obtain ⟨finished, s⟩ := rest (y.run b).1 s
  exact ⟨proceeds done finished, s⟩

/-- An attempt that succeeds may go on with another. -/
lemma Does.seq {x : Attempt β Unit} {y : Exec β Unit} {f : Attempt β γ} {g : Exec β γ}
    (first : Does span n m x y) (rest : Does span m k f g) :
    Does span n k (x >>= fun _ => f) (y >>= fun _ => g) :=
  .bind first fun _ => rest

/-- A computation without effect precedes. -/
lemma Does.after {x : Option α} {a : α} {f : α → Attempt β γ} {y : Exec β γ} (first : x = some a)
    (rest : Does span n m (f a) y) : Does span n m (compute x >>= f) y := by
  intro b s
  obtain ⟨done, s⟩ := rest s
  rw [first]
  exact ⟨done, s⟩

/-- An attempt that leaves more room than is needed leaves enough. -/
lemma Does.less {x : Attempt β α} {y : Exec β α} (done : Does span n (m + 1) x y) :
    Does span n m x y := by
  intro b s
  obtain ⟨eq, s⟩ := done s
  exact ⟨eq, s.less (Nat.le_succ m)⟩

/-- An attempt that succeeds does so when repeated, by induction on the number of turns. -/
lemma Does.times {x : Attempt β Unit} {y : Exec β Unit} (done : Does span n n x y) :
    ∀ {turns : Nat}, turns ≤ 64 → Does span n n (Checked.times turns x) (Machine.times turns y) := by
  intro turns
  induction turns with
  | zero => exact fun _ => .pure ()
  | succ turns ih =>
    intro few
    exact .seq done (.after (signed_eq (by omega) (by omega)) (ih (by omega)))

end Attempts

/-! ## The register stack -/

/-- Brings a difference of seven-bit numbers into their signed range. -/
def wrapped (n : Int) : Option Int :=
  if 63 < n then signed 32 (n - 128) else if n < -64 then signed 32 (n + 128) else some n

/-- How many words are to be spilled, in numbers of thirty-two bits. -/
def spillCount (c : Cpu) : Option Nat := do
  let frameEnd ← signed 32 (c.status.fp.toNat + c.status.frameLength)
  let room ← signed 32 ((stackSlot c.regs.sp).toNat + 54)
  let difference ← signed 32 (room - frameEnd)
  return (-(← wrapped difference)).toNat

/-- How many words are to be refilled, in numbers of thirty-two bits. -/
def refillCount (c : Cpu) : Option Nat := do
  let difference ← signed 32 (c.status.fp.toNat - (stackSlot c.regs.sp).toNat)
  return (-(← wrapped difference)).toNat

/-- What lies within two hundred of zero is wrapped by one turn at most. -/
lemma wrapped_eq {n : Int} (least : -192 ≤ n) (greatest : n < 192) :
    wrapped n = some (BitVec.ofInt 7 n).toInt := by
  rw [BitVec.toInt_ofInt, Int.bmod]
  unfold wrapped
  split
  · rw [signed_eq (by omega) (by omega)]
    congr 1
    omega
  · split
    · rw [signed_eq (by omega) (by omega)]
      congr 1
      omega
    · congr 1
      omega

/-- A word made from its own number is that word. -/
lemma ofInt_toNat {w : Nat} (b : BitVec w) : BitVec.ofInt w b.toNat = b := by
  rw [BitVec.ofInt_natCast, BitVec.ofNat_toNat, BitVec.setWidth_eq]

/-- The number of words to spill is always made. -/
lemma spillCount_eq (c : Cpu) : spillCount c = some c.spillCount := by
  have fp := c.status.fp.isLt
  have slot := (stackSlot c.regs.sp).isLt
  have length : c.status.frameLength ≤ 16 := by
    unfold Status.frameLength
    split <;> omega
  -- slot plus 54 less frame pointer and length lies between -89 and 181
  refine proceeds (signed_eq (by omega) (by omega)) (proceeds (signed_eq (by omega) (by omega))
    (proceeds (signed_eq (by omega) (by omega)) (proceeds (wrapped_eq (by omega) (by omega)) ?_)))
  have difference : BitVec.ofInt 7 ((stackSlot c.regs.sp).toNat + 54 -
      (c.status.fp.toNat + c.status.frameLength)) =
      stackSlot c.regs.sp + 54 - c.status.fp - BitVec.ofNat 7 c.status.frameLength := by
    rw [← Int.sub_sub, ofInt_sub, ofInt_sub, BitVec.ofInt_add, ofInt_toNat, ofInt_toNat,
      BitVec.ofInt_natCast]
    rfl
  rw [difference]
  rfl

/-- The number of words to refill is always made. -/
lemma refillCount_eq (c : Cpu) : refillCount c = some c.refillCount := by
  have fp := c.status.fp.isLt
  have slot := (stackSlot c.regs.sp).isLt
  refine proceeds (signed_eq (by omega) (by omega)) (proceeds (wrapped_eq (by omega) (by omega)) ?_)
  rw [ofInt_sub, ofInt_toNat, ofInt_toNat]
  rfl

section

variable {β : Type} [Bus β]

/-- Spills a word of the register stack. -/
def spill : Attempt β Unit := do
  let c ← surely Machine.getCpu
  let sp := c.regs.sp
  let value ← compute (backing c.regs sp)
  surely (Machine.onBus (Bus.writeWord (alignWord sp) value))
  surely (Machine.modifyCpu (·.modifyRegs (·.setSp (sp + 4))))

/-- Refills a word of the register stack. -/
def refill : Attempt β Unit := do
  let c ← surely Machine.getCpu
  let sp := c.regs.sp - 4
  surely (Machine.modifyCpu (·.modifyRegs (·.setSp sp)))
  let value ← surely (Machine.onBus (Bus.readWord sp))
  tryCpu fun c => do
    let regs ← setBacking c.regs sp value
    return { c with regs }

/-- Moves the frame, and spills what the bank cannot hold. -/
def frame (back length : BitVec 4) : Attempt β Unit := do
  surely (Machine.modifyCpu (·.reframe back length))
  let c ← surely Machine.getCpu
  let count ← compute (spillCount c)
  let overflows := 0 < count && (c.regs.global Global.ub).ule c.regs.sp
  times count spill
  tryCpu fun c => do
    let c ← raiseIf c overflows .frame
    charge c .controlTransfer

/-- Returns to the address and status in the pair at `src`. The state bit comes from bit 0 of the address, by a
product. -/
def ret (src : Operand) : Attempt β Unit := do
  let old ← surely Machine.getCpu
  let address ← compute (read old src)
  let second ← compute (next src)
  let saved ← compute (read old second)
  let _ ← compute (unsigned 32 (address.toNat % 2 * 2 ^ 18))
  surely (Machine.modifyCpu (·.resume address saved))
  let c ← surely Machine.getCpu
  let count ← compute (refillCount c)
  times count refill
  tryCpu fun c => do
    let c ← raiseIf c (Cpu.breaksPrivilege old.status c.status) .privilege
    charge c .controlTransfer

variable {span : Span} {n : Nat}

/-- The register that backs a stack word is replaced without fail. -/
lemma setBacking_gives {c : Cpu} (s : Sound span n c) (addr value : Word) :
    Gives span n (setBacking c.regs addr value >>= fun regs => some { c with regs })
      (c.modifyRegs (·.setLocalAt (stackCell addr) value)) :=
  .after (setBacking_eq c.regs addr value) (.pure (s.modifyRegs (·.setLocalAt (stackCell addr) value)))

/-- A spill never fails. -/
lemma spill_does : Does span n n (spill : Attempt β Unit) Machine.spill :=
  .bind .getCpu fun c => .after (backing_eq c.regs c.regs.sp)
    (.seq (.onBus _) (.modifyCpu fun s => s.modifyRegs _))

/-- A refill never fails. -/
lemma refill_does : Does span n n (refill : Attempt β Unit) Machine.refill :=
  .bind .getCpu fun _ => .seq (.modifyCpu fun s => s.modifyRegs _)
    (.bind (.onBus _) fun value => .tryCpu fun s => setBacking_gives s _ value)

/-- A frame never fails. -/
lemma frame_does (back length : BitVec 4) :
    Does span (n + 2) n (frame back length : Attempt β Unit) (Machine.frame back length) :=
  .seq (.modifyCpu fun s => s.modifyStatus _) (.bind .getCpu fun c =>
    .after (spillCount_eq c) (.seq (.times spill_does (Cpu.spillCount_le _))
      (.tryCpu fun s => (raiseIf_gives s _ .frame).charge .controlTransfer)))

/-- A return never fails. -/
lemma ret_does {src : Operand} (small : src.code < 32) :
    Does span (n + 2) n (ret src : Attempt β Unit) (Machine.ret src) :=
  .bind .getCpu fun old => .after (read_eq old src) (.after (next_eq small)
    (.after (read_eq old src.next) (.after (unsigned_eq (by omega))
      (.seq (.modifyCpu fun s => s.quiet rfl rfl rfl) (.bind .getCpu fun c => .after (refillCount_eq c)
        (.seq (.times refill_does (Cpu.refillCount_le _))
          (.tryCpu fun s => (raiseIf_gives s _ .privilege).charge .controlTransfer)))))))

/-! ## Loads and stores -/

/-- The address of a transfer. -/
def transferAddress (c : Cpu) : Addressing → Option Word
  | .offset base offset => do
    return (← readBeyondCarry c base) + offset
  | .advancing address _ => read c address

/-- Advances the address register of a transfer, if it has one. -/
def advanceAddress (span : Span) (c : Cpu) (addr : Word) : Addressing → Option Cpu
  | .offset _ _ => some c
  | .advancing address step => write span c address (addr + step)

/-- The words that a store takes from its registers: zeros where they name the status register. -/
def stored (c : Cpu) (data : Operand) : Option (Word × Word) :=
  if data.isSr then some (0, 0)
  else do
    let high ← read c data
    let low ← read c (← next data)
    return (high, low)

/-- Loads into registers in one of the forms. -/
def loadData (span : Span) (form : DataForm) (addr : Word) (data : Operand) : Attempt β Unit := do
  match form with
  | .byte signed =>
    let value ← surely (Machine.onBus (Bus.readByte addr))
    tryCpu fun c => write span c data (extend signed value)
  | .half signed =>
    let value ← surely (Machine.onBus (Bus.readHalf (alignHalf addr)))
    tryCpu fun c => write span c data (extend signed value)
  | .word =>
    let value ← surely (Machine.readWord addr)
    tryCpu fun c => write span c data value
  | .double =>
    let high ← surely (Machine.readWord addr)
    let low ← surely (Machine.readWord (addr + 4))
    tryCpu fun c => writePair span c data (high ++ low)
  | .ioWord =>
    let value ← surely (Machine.onBus (Bus.ioReadWord (ioAddress addr)))
    tryCpu fun c => write span c data value
  | .ioDouble =>
    let high ← surely (Machine.onBus (Bus.ioReadWord (ioAddress addr)))
    let low ← surely (Machine.onBus (Bus.ioReadWord (ioAddress (addr + 4))))
    tryCpu fun c => writePair span c data (high ++ low)
  | .stack =>
    let c ← surely Machine.getCpu
    if addr.ult c.regs.sp then
      let value ← surely (Machine.readWord addr)
      tryCpu fun c => write span c data value
    else
      let value ← compute (backing c.regs addr)
      tryCpu fun c => write span c data value

/-- Stores from registers in one of the forms, with a range error where a signed value does not fit. -/
def storeData (form : DataForm) (addr : Word) (data : Operand) : Attempt β Unit := do
  let c ← surely Machine.getCpu
  let (high, low) ← compute (stored c data)
  match form with
  | .byte _ => surely (Machine.onBus (Bus.writeByte addr (high.setWidth 8)))
  | .half _ => surely (Machine.onBus (Bus.writeHalf (alignHalf addr) (lowHalf high)))
  | .word => surely (Machine.writeWord addr high)
  | .double =>
    surely (Machine.writeWord addr high)
    surely (Machine.writeWord (addr + 4) low)
  | .ioWord => surely (Machine.onBus (Bus.ioWriteWord (ioAddress addr) high))
  | .ioDouble =>
    surely (Machine.onBus (Bus.ioWriteWord (ioAddress addr) high))
    surely (Machine.onBus (Bus.ioWriteWord (ioAddress (addr + 4)) low))
  | .stack =>
    if addr.ult c.regs.sp then surely (Machine.writeWord addr high)
    else
      tryCpu fun c => do
        let regs ← setBacking c.regs addr high
        return { c with regs }
  tryCpu fun c => raiseIf c (form.loses high) .range

/-- Loads, with the address register advanced before the transfer. -/
def load (span : Span) (form : DataForm) (addressing : Addressing) (data : Operand) : Attempt β Unit := do
  let c ← surely Machine.getCpu
  let addr ← compute (transferAddress c addressing)
  tryCpu fun c => advanceAddress span c addr addressing
  loadData span form addr data
  tryCpu fun c => charge c form.cost

/-- Stores, with the address register advanced after the transfer. -/
def store (span : Span) (form : DataForm) (addressing : Addressing) (data : Operand) : Attempt β Unit := do
  let c ← surely Machine.getCpu
  let addr ← compute (transferAddress c addressing)
  tryCpu fun c => charge c form.cost
  storeData form addr data
  tryCpu fun c => advanceAddress span c addr addressing

omit [Bus β]

/-- The address of a transfer can always be made. -/
lemma transferAddress_eq (c : Cpu) (addressing : Addressing) :
    transferAddress c addressing = some (c.transferAddress addressing) := by
  cases addressing with
  | offset base offset => exact proceeds (readBeyondCarry_eq c base) rfl
  | advancing address step => exact read_eq c address

/-- The address register of a transfer can always be advanced. -/
lemma advanceAddress_gives {c : Cpu} (s : Sound span n c) (addr : Word) (addressing : Addressing) :
    Gives span n (advanceAddress span c addr addressing) (c.advanceAddress addr addressing) := by
  cases addressing with
  | offset base offset => exact .pure s
  | advancing address step => exact write_gives s address _

/-- The words of a store can always be read. -/
lemma stored_eq (c : Cpu) {data : Operand} (small : data.code < 32) :
    stored c data = some (c.stored data) := by
  unfold stored Cpu.stored
  split
  · rfl
  · exact proceeds (read_eq c data) (proceeds (next_eq small) (proceeds (read_eq c data.next) rfl))

/-- A write of a register never fails. -/
lemma write_does (data : Operand) (value : Word) :
    Does span n n (tryCpu fun c => write span c data value : Attempt β Unit)
      (Machine.modifyCpu (·.write data value)) :=
  .tryCpu fun s => write_gives s data value

variable [Bus β]

/-- The transfer of a load never fails. -/
lemma loadData_does (form : DataForm) (addr : Word) {data : Operand} (small : data.code < 32) :
    Does span n n (loadData span form addr data : Attempt β Unit) (Machine.loadData form addr data) := by
  have pair (value : Double) : Does span n n
      (tryCpu fun c => writePair span c data value : Attempt β Unit)
      (Machine.modifyCpu (·.writePair data value)) := .tryCpu fun s => writePair_gives s small value
  cases form with
  | byte signed | half signed => exact .bind (.onBus _) fun value => write_does data _
  | word | ioWord => exact .bind (.onBus _) fun value => write_does data value
  | double | ioDouble => exact .bind (.onBus _) fun high => .bind (.onBus _) fun low => pair _
  | stack =>
    refine .bind .getCpu fun c => ?_
    split
    · exact .bind (.onBus _) fun value => write_does data value
    · exact .after (backing_eq c.regs addr) (write_does data _)

/-- The transfer of a store never fails. -/
lemma storeData_does (form : DataForm) (addr : Word) {data : Operand} (small : data.code < 32) :
    Does span (n + 1) n (storeData form addr data : Attempt β Unit) (Machine.storeData form addr data) := by
  refine .bind .getCpu fun c => .after (stored_eq c small) ?_
  rcases c.stored data with ⟨high, low⟩
  have raised : Does span (n + 1) n
      (tryCpu fun c => raiseIf c (form.loses high) .range : Attempt β Unit)
      (Machine.modifyCpu (·.raiseIf (form.loses high) .range)) :=
    .tryCpu fun s => raiseIf_gives s _ .range
  cases form with
  | byte signed | half signed | word | ioWord => exact .seq (.onBus _) raised
  | double | ioDouble => exact .seq (.onBus _) (.seq (.onBus _) raised)
  | stack =>
    dsimp only
    split
    · exact .seq (.onBus _) raised
    · exact .seq (.tryCpu fun s => setBacking_gives s addr high) raised

/-- A load never fails. -/
lemma load_does (form : DataForm) (addressing : Addressing) {data : Operand} (small : data.code < 32) :
    Does span (n + 1) n (load span form addressing data : Attempt β Unit)
      (Machine.load form addressing data) :=
  .bind .getCpu fun c => .after (transferAddress_eq c addressing)
    (.seq (.tryCpu fun s => advanceAddress_gives s _ addressing)
      (.seq (loadData_does form _ small) (.tryCpu fun s => charge_gives s form.cost)))

/-- A store never fails. -/
lemma store_does (form : DataForm) (addressing : Addressing) {data : Operand} (small : data.code < 32) :
    Does span (n + 2) n (store span form addressing data : Attempt β Unit)
      (Machine.store form addressing data) :=
  .bind .getCpu fun c => .after (transferAddress_eq c addressing)
    (.seq (.tryCpu fun s => charge_gives s form.cost)
      (.seq (storeData_does form _ small) (.tryCpu fun s => advanceAddress_gives s _ addressing)))

end

/-! ## Instructions -/

section

variable {β : Type} [Bus β] {span : Span} {n : Nat}

/-- Executes an instruction. -/
def execute (span : Span) : Instruction → Attempt β Unit
  | .check dst src => tryCpu (check · dst src)
  | .moveDouble dst src => tryCpu (moveDouble span · dst src)
  | .ret src => ret src
  | .divide dst src signed => tryCpu (divide span · dst src signed)
  | .indexMove dst src scale limit => tryCpu (indexMove span · dst src scale limit)
  | .mask dst src mask => tryCpu (Checked.mask span · dst src mask)
  | .sum dst src addend signed => tryCpu (sum span · dst src addend signed)
  | .add dst src signed => tryCpu (add span · dst src signed)
  | .sub dst src signed => tryCpu (sub span · dst src signed)
  | .neg dst src signed => tryCpu (neg span · dst src signed)
  | .addCarry dst src => tryCpu (addCarry span · dst src)
  | .subCarry dst src => tryCpu (subCarry span · dst src)
  | .round dst signed => tryCpu (round span · dst signed)
  | .compare dst src => tryCpu (compare · dst src)
  | .testBits dst src => tryCpu (testBits · dst src)
  | .testZeroByte dst => tryCpu (testZeroByte · dst)
  | .logical op dst src => tryCpu (logical span · op dst src)
  | .complement dst src => tryCpu (complement span · dst src)
  | .move dst src => tryCpu (move span · dst src)
  | .moveImmediate dst value => tryCpu (moveImmediate span · dst value)
  | .privileged => tryCpu refuseMove
  | .shift kind dst count => tryCpu (shiftWord span · kind dst count)
  | .shiftDouble kind dst count => tryCpu (shiftDouble span · kind dst count)
  | .leadingZeros dst src => tryCpu (leadingZeros span · dst src)
  | .rotate dst src => tryCpu (rotate span · dst src)
  | .load form addressing data => load span form addressing data
  | .store form addressing data => store span form addressing data
  | .reservedTransfer address step report => tryCpu (reservedTransfer span · address step report)
  | .multiply kind dst src => tryCpu (multiply span · kind dst src)
  | .set dst value => tryCpu (set span · dst value)
  | .emulate byte dst src => tryCpu (enterEmulation · byte dst src)
  | .accumulate f dst src => tryCpu (accumulation · f dst src)
  | .delayedBranch offset => tryCpu (delayedBranch · offset)
  | .branch offset => tryCpu (branch · offset)
  | .fallThrough => tryCpu (charge · .branchNotTaken)
  | .frame back length => frame back length
  | .call code src addend => tryCpu (call · code src addend)
  | .trap number condition => tryCpu (trap · number condition)
  | .undefined report cost => tryCpu fun c => charge (c.report report) cost
  | .reserved report => tryCpu fun c => charge (c.report report) .alu

/-- No instruction that decoding finds fails, and none makes more than two charges. -/
lemma execute_does (few : n ≤ 5) (i : Instruction) (sized : i.Sized) :
    Does span (n + 2) n (execute span i : Attempt β Unit) (Machine.execute i) := by
  -- Decoding bounds the codes of pairs, shifts and calls; the other cases need nothing of it. Most make a single
  -- charge, where two have room.
  cases i with
  | check dst src => exact .tryCpu fun s => check_gives s dst src
  | moveDouble dst src =>
    obtain ⟨dstSmall, srcSmall⟩ := sized
    exact .tryCpu fun s => (moveDouble_gives s (by omega) (by omega)).less
  | ret src =>
    have small : src.code < 16 := sized
    exact ret_does (by omega)
  | divide dst src signed =>
    have small : dst.code < 16 := sized
    exact .tryCpu fun s => divide_gives s (by omega) src signed
  | indexMove dst src scale limit =>
    have short : scale < 4 := sized
    exact .tryCpu fun s => indexMove_gives s dst src (by omega) limit
  | mask dst src mask => exact .tryCpu fun s => (mask_gives s dst src mask).less
  | sum dst src addend signed => exact .tryCpu fun s => sum_gives s dst src addend signed
  | add dst src signed => exact .tryCpu fun s => add_gives s dst src signed
  | sub dst src signed => exact .tryCpu fun s => sub_gives s dst src signed
  | neg dst src signed => exact .tryCpu fun s => neg_gives s dst src signed
  | addCarry dst src => exact .tryCpu fun s => (addCarry_gives s dst src).less
  | subCarry dst src => exact .tryCpu fun s => (subCarry_gives s dst src).less
  | round dst signed => exact .tryCpu fun s => round_gives s dst signed
  | compare dst src => exact .tryCpu fun s => (compare_gives s dst src).less
  | testBits dst src => exact .tryCpu fun s => (testBits_gives s dst src).less
  | testZeroByte dst => exact .tryCpu fun s => (testZeroByte_gives s dst).less
  | logical op dst src => exact .tryCpu fun s => (logical_gives s op dst src).less
  | complement dst src => exact .tryCpu fun s => (complement_gives s dst src).less
  | move dst src => exact .tryCpu fun s => (move_gives s (by omega) dst src).less
  | moveImmediate dst value => exact .tryCpu fun s => (moveImmediate_gives s dst value).less
  | privileged => exact .tryCpu fun s => refuseMove_gives s
  | shift kind dst count => exact .tryCpu fun s => (shiftWord_gives s kind dst count).less
  | shiftDouble kind dst count =>
    have small : dst.code < 16 := sized
    exact .tryCpu fun s => (shiftDouble_gives s kind (by omega) count).less
  | leadingZeros dst src => exact .tryCpu fun s => (leadingZeros_gives s dst src).less
  | rotate dst src => exact .tryCpu fun s => (rotate_gives s dst src).less
  | load form addressing data =>
    have small : data.code < 16 := sized
    exact (load_does form addressing (by omega)).less
  | store form addressing data =>
    have small : data.code < 16 := sized
    exact store_does form addressing (by omega)
  | reservedTransfer address step report =>
    exact .tryCpu fun s => (reservedTransfer_gives s address step report).less
  | multiply kind dst src =>
    have small : dst.code < 16 := sized
    exact .tryCpu fun s => (multiply_gives s kind (by omega) src).less
  | set dst value => exact .tryCpu fun s => (set_gives s dst value).less
  | emulate byte dst src => exact .tryCpu fun s => (enterEmulation_gives s byte dst sized).less
  | accumulate f dst src => exact .tryCpu fun s => (accumulation_gives s f dst src).less
  | delayedBranch offset => exact .tryCpu fun s => (delayedBranch_gives s offset).less
  | branch offset => exact .tryCpu fun s => (branch_gives s offset).less
  | fallThrough => exact .tryCpu fun s => (charge_gives s .branchNotTaken).less
  | frame back length => exact frame_does back length
  | call code src addend => exact .tryCpu fun s => (call_gives s sized src addend).less
  | trap number condition => exact .tryCpu fun s => trap_gives s number condition
  | undefined report cost => exact .tryCpu fun s => (charge_gives (s.report report) cost).less
  | reserved report => exact .tryCpu fun s => (charge_gives (s.report report) .alu).less

end

end Checked

end E1Machine
