import E1Machine.Proofs.Forms
import E1Machine.Proofs.Related

/-!
# Fetching

Only a move reads the tick count, and its instruction word says so (`decode_quiet`).

Decoding asks the bus for nothing but halfwords of the instruction stream, in a row (`Decode.InStep`). So two
machines that fetch from buses which answer alike decode the same instruction. With `execute_related` this
makes a whole instruction cycle related.

An instruction without meaning is the one place where a machine stops, and a relation need not survive
that. So fetching is separate from stopping here, and `executeOne_cases` says which of the two happens.
-/

namespace E1Machine

namespace Decode

/-! ## What decoding finds -/

section

variable {β : Type} [Bus β]

/-- The decoded instruction, if any, leaves the tick count unread. -/
def Quiet (found : Option Instruction) : Prop := ∀ i, found = some i → i.readsTicks = false

omit [Bus β] in
/-- A register field names the tick count only with the high flag, and as global register 7. -/
lemma raised_quiet {o : Operand} (field : o.code < 16) {h : Bool} (other : h = true → o ≠ ⟨.globals, 7⟩) :
    (o.raised h).isTicks = false := by
  obtain ⟨bank, code⟩ := o
  dsimp only at field
  unfold Operand.isTicks Operand.raised Global.tr
  cases h with
  | false =>
    have low : code % 32 ≠ 23 := by omega
    simp [low]
  | true =>
    cases bank with
    | locals => rfl
    | globals =>
      have ne : code ≠ 7 := fun eq => other rfl (by rw [eq])
      have off : (code + 16) % 32 ≠ 23 := by omega
      simp [off]

/-- Only a move with the high flag set and global register 7 in its source field reads the tick count. -/
lemma decode_quiet (address : Word) (word : Half) (status : Status)
    (other : (Encoding.ofWord word).operation = .mov → status.h = true →
      (Encoding.ofWord word).srcOperand word ≠ ⟨.globals, 7⟩) :
    Finds Quiet (Instruction.decode address word status : Decode β (Option Instruction)) := by
  refine decode_finds address word status fun i form => ?_
  cases form with
  | move isMove allowed => exact raised_quiet (fields_lt word).2 (other isMove)
  | _ => rfl

omit [Bus β] in
/-- One high byte has no meaning. -/
lemma unimplemented_byte : ∀ byte : Byte, (Encoding.ofByte byte).operation = .unimplemented →
    byte = 0xcf := by
  decide +kernel

/-- Decoding finds no instruction only in a word with that byte. -/
lemma decode_none (address : Word) (word : Half) (status : Status) :
    Finds (fun found => found = none → word.extractLsb' 8 8 = 0xcf)
      (Instruction.decode address word status : Decode β (Option Instruction)) := by
  refine (decode_fits address word status).mono ?_
  rintro _ unimplemented rfl
  exact unimplemented_byte _ unimplemented

end

/-! ## Decoding side by side -/

variable {α γ β β' : Type}

/-- Two decoders that do the same from every place in the instruction stream. -/
def Agrees (S : β → β' → Prop) (x : Decode β α) (y : Decode β' α) : Prop :=
  ∀ cursor, Answers S (x.run cursor) (y.run cursor)

variable [Bus β] [Bus β']

/-- Two decoders in step: they fetch the same halfwords in a row, so many at most, and find the same. When all
are fetched they may pass over further halfwords and set the length of the instruction. -/
inductive InStep : Nat → Decode β α → Decode β' α → Prop where
  | done {most : Nat} (a : α) (move : Cursor → Cursor)
      (ahead : ∀ cursor, ∃ n, (move cursor).pc = cursor.pc + BitVec.ofNat 32 (2 * n)) :
    InStep most (fun cursor => pure (a, move cursor)) (fun cursor => pure (a, move cursor))
  | next {most : Nat} {f : Half → Decode β α} {g : Half → Decode β' α}
      (rest : ∀ h, InStep most (f h) (g h)) : InStep (most + 1) (halfword >>= f) (halfword >>= g)

section

variable {most : Nat}

/-- A decoder that fetches nothing and sets a length is in step with itself. -/
lemma InStep.still (a : α) (length : Cursor → Nat) :
    InStep most (fun cursor => Pure.pure (a, { cursor with length := length cursor }) : Decode β α)
      (fun cursor => Pure.pure (a, { cursor with length := length cursor }) : Decode β' α) :=
  .done a _ fun _ => ⟨0, (BitVec.add_zero _).symm⟩

/-- Decoders that find the same without fetching are in step. -/
lemma InStep.pure (a : α) : InStep most (Pure.pure a : Decode β α) (Pure.pure a : Decode β' α) :=
  .still a (·.length)

/-- Setting a length is in step with itself. -/
lemma InStep.ofLength (halfwords : Nat) (a : α) :
    InStep most (setLength halfwords >>= fun _ => Pure.pure a : Decode β α)
      (setLength halfwords >>= fun _ => Pure.pure a : Decode β' α) :=
  .still a fun _ => halfwords

/-- Passing over halfwords is in step with itself. -/
lemma InStep.skip (halfwords : Nat) :
    InStep most (skip halfwords : Decode β Unit) (skip halfwords : Decode β' Unit) :=
  .done () (fun c => ⟨c.pc + BitVec.ofNat 32 (2 * halfwords), 1 + halfwords⟩) fun _ =>
    ⟨halfwords, rfl⟩

/-- A function of what is found does not put decoders out of step. -/
lemma InStep.map {x : Decode β α} {y : Decode β' α} (steps : InStep most x y) (f : α → γ) :
    InStep most (x >>= fun a => Pure.pure (f a)) (y >>= fun a => Pure.pure (f a)) := by
  induction steps with
  | done a move ahead => exact .done (f a) move ahead
  | next rest ih => exact .next ih

/-- Decoders in step do the same on buses that answer alike. -/
lemma InStep.agrees {S : β → β' → Prop} (hS : AnswersAlike S) {x : Decode β α} {y : Decode β' α}
    (steps : InStep most x y) : Agrees S x y := by
  induction steps with
  | done a move ahead => exact fun _ _ _ s => ⟨rfl, s⟩
  | @next _ f g rest ih =>
    intro cursor b b' s
    obtain ⟨same, s⟩ := hS.fetch cursor.pc s
    have next := ih ((Bus.fetch cursor.pc).run b).1 { cursor with pc := cursor.pc + 2 } s
    have run : ((halfword >>= g).run cursor).run b' =
        ((g ((Bus.fetch cursor.pc).run b').1).run { cursor with pc := cursor.pc + 2 }).run
          ((Bus.fetch cursor.pc).run b').2 := rfl
    rw [run, ← same]
    exact next

end

/-! ## The formats -/

/-- An operand of one halfword, or of two when bit 15 of the first is set. -/
lemma oneOrTwo_inStep (one : Half → α) (two : Half → Half → α) :
    InStep 2
      (halfword >>= fun first =>
        if first.msb then
          halfword >>= fun second => setLength 3 >>= fun _ => Pure.pure (two first second)
        else setLength 2 >>= fun _ => Pure.pure (one first) : Decode β α)
      (halfword >>= fun first =>
        if first.msb then
          halfword >>= fun second => setLength 3 >>= fun _ => Pure.pure (two first second)
        else setLength 2 >>= fun _ => Pure.pure (one first) : Decode β' α) := by
  refine .next fun first => ?_
  split
  · exact .next fun second => .ofLength 3 _
  · exact .ofLength 2 _

/-- An immediate is fetched in step. -/
lemma immediate_inStep (word : Half) :
    InStep 2 (immediate word : Decode β Word) (immediate word : Decode β' Word) := by
  unfold immediate codedImmediate
  split
  · split
    · exact .next fun _ => .next fun _ => .ofLength 3 _
    · exact .next fun _ => .ofLength 2 _
    · exact .next fun _ => .ofLength 2 _
    · exact .pure _
  · exact .pure _

/-- An immediate is skipped in step. -/
lemma skipImmediate_inStep (word : Half) :
    InStep 2 (skipImmediate word : Decode β Unit) (skipImmediate word : Decode β' Unit) := by
  unfold skipImmediate skipCodedImmediate
  split
  · split
    · exact .skip 2
    · exact .skip 1
    · exact .skip 1
    · exact .still () fun _ => 1
  · exact .pure ()

/-- An offset is fetched in step. -/
lemma offset_inStep (word : Half) :
    InStep 2 (offset word : Decode β Word) (offset word : Decode β' Word) := by
  unfold offset
  split
  · exact .next fun _ => .ofLength 2 _
  · exact .pure _

/-- An offset is skipped in step. -/
lemma skipOffset_inStep (word : Half) :
    InStep 2 (skipOffset word : Decode β Unit) (skipOffset word : Decode β' Unit) := by
  unfold skipOffset
  split
  · exact .skip 1
  · exact .pure ()

/-- A move of a literal is decoded in step. -/
lemma ofMoveImmediate_inStep (word : Half) (status : Status) (dst : Operand) :
    InStep 2 (Instruction.ofMoveImmediate word status dst : Decode β Instruction)
      (Instruction.ofMoveImmediate word status dst : Decode β' Instruction) := by
  unfold Instruction.ofMoveImmediate
  split
  · exact (skipImmediate_inStep word).map fun _ => Instruction.privileged
  · exact (immediate_inStep word).map _

/-- A branch is decoded in step, whether or not it is taken. -/
lemma ofBranch_inStep (word : Half) (taken : Bool) (branch : Word → Instruction) :
    InStep 2 (Instruction.ofBranch word taken branch : Decode β Instruction)
      (Instruction.ofBranch word taken branch : Decode β' Instruction) := by
  unfold Instruction.ofBranch
  cases taken with
  | true => exact (offset_inStep word).map branch
  | false => exact (skipOffset_inStep word).map fun _ => Instruction.fallThrough

/-- The operands of an instruction are fetched in a row after its word. -/
lemma decode_inStep (address : Word) (word : Half) (status : Status) :
    InStep 2 (Instruction.decode address word status : Decode β (Option Instruction))
      (Instruction.decode address word status : Decode β' (Option Instruction)) := by
  have const : InStep 2 (const : Decode β Word) (const : Decode β' Word) := oneOrTwo_inStep _ _
  have displacement : InStep 2 (displacement : Decode β Displacement)
    (displacement : Decode β' Displacement) := oneOrTwo_inStep _ _
  have indexLimit : InStep 2 (indexLimit : Decode β IndexLimit) (indexLimit : Decode β' IndexLimit) :=
    oneOrTwo_inStep _ _
  have function : InStep 2 (function : Decode β Half) (function : Decode β' Half) :=
    .next fun _ => .ofLength 2 _
  unfold Instruction.decode
  dsimp only
  -- Operations differ in the operand that they fetch; those without one fetch nothing.
  cases (Encoding.ofWord word).operation with
  | xm => exact indexLimit.map _
  | mask | sum | sums | call => exact const.map _
  | loadDisplacement | loadNext | storeDisplacement | storeNext => exact displacement.map _
  | cmpi | ori | xori => exact (immediate_inStep word).map _
  | addi | addsi | cmpbi | andni =>
    dsimp only
    split
    · exact .pure _
    · exact (immediate_inStep word).map _
  | movi => exact (ofMoveImmediate_inStep word status _).map _
  | delayedBranch | dbr | branch | br => exact (ofBranch_inStep word _ _).map _
  | extend => exact function.map _
  | _ => exact .pure _

/-- Both sides decode the same instruction. -/
lemma decode_agrees {S : β → β' → Prop} (hS : AnswersAlike S) (address : Word) (word : Half)
    (status : Status) :
    Agrees S (Instruction.decode address word status : Decode β (Option Instruction))
      (Instruction.decode address word status) :=
  (decode_inStep address word status).agrees hS

end Decode

/-! ## The instruction cycle -/

namespace Machine

variable {β β' : Type} [Bus β] [Bus β'] {R Q : Cpu → Cpu → Prop} {S : β → β' → Prop}

/-- Both machines fetch the same instruction. -/
lemma fetchNext_related (hS : AnswersAlike S) (h : Cpu.Congruence R) :
    Related R R S Eq (fetchNext : Exec β (Except Fault Instruction)) fetchNext := by
  refine .bind .getCpu fun c d r => ?_
  rw [h.regs_eq r, h.status_eq r]
  refine .ask (hS.fetch _) fun word => .seq (.modifyCpu h.begin) (.bind .getCpu fun c d r => ?_)
  rw [h.regs_eq r]
  refine .ask (Decode.decode_agrees hS _ word _ _) fun (found, cursor) =>
    .seq (.modifyCpu fun r => h.continueAt cursor r) ?_
  cases found with
  | none => exact .pure rfl
  | some i =>
    dsimp only
    split
    · exact .seq (.modifyCpu h.redirect) (.pure rfl)
    · exact .pure rfl

variable (b : Machine β)

/-- What decoding answers, and what a fetch does with it. -/
lemma fetchNext_decodes : ∃ (found : Option Instruction) (cursor : Cursor) (bus : β),
    ((Instruction.decode b.cpu.regs.pc ((Bus.fetch b.cpu.regs.pc).run b.bus).1 b.cpu.status).run
      { pc := b.cpu.begin.regs.pc }).run ((Bus.fetch b.cpu.regs.pc).run b.bus).2 =
        ((found, cursor), bus) ∧
    fetchNext.run b =
      (match found with
        | none => pure (.error (.unimplementedOpcode b.cpu.regs.pc
            ((Bus.fetch b.cpu.regs.pc).run b.bus).1))
        | some i => do
          if i.redirects then modifyCpu (·.redirect)
          return .ok i : Exec β (Except Fault Instruction)).run
        ⟨b.cpu.begin.continueAt cursor, bus⟩ := ⟨_, _, _, rfl, rfl⟩

/-- What a fetch does with what is decoded. -/
lemma fetchNext_run : ∃ (found : Option Instruction) (cursor : Cursor) (bus : β),
    (∀ P, Decode.Finds P (Instruction.decode b.cpu.regs.pc ((Bus.fetch b.cpu.regs.pc).run b.bus).1
      b.cpu.status : Decode β (Option Instruction)) → P found) ∧
    fetchNext.run b =
      (match found with
        | none => pure (.error (.unimplementedOpcode b.cpu.regs.pc
            ((Bus.fetch b.cpu.regs.pc).run b.bus).1))
        | some i => do
          if i.redirects then modifyCpu (·.redirect)
          return .ok i : Exec β (Except Fault Instruction)).run
        ⟨b.cpu.begin.continueAt cursor, bus⟩ := by
  obtain ⟨found, cursor, bus, decoded, fetch⟩ := b.fetchNext_decodes
  refine ⟨found, cursor, bus, fun P finds => ?_, fetch⟩
  have property := finds { pc := b.cpu.begin.regs.pc } ((Bus.fetch b.cpu.regs.pc).run b.bus).2
  rw [decoded] at property
  exact property

omit [Bus β] in
/-- An instruction follows a pending delayed branch before it executes, unless it is reserved. -/
lemma redirect_run (i : Instruction) (c : Machine β) :
    (do
      if i.redirects then modifyCpu (·.redirect)
      return .ok i : Exec β (Except Fault Instruction)).run c =
        (.ok i, ⟨if i.redirects then c.cpu.redirect else c.cpu, c.bus⟩) := by
  cases redirects : i.redirects with
  | true => rfl
  | false => rfl

/-- A fetch moves the program counter past the instruction, and then follows a pending delayed branch
unless the instruction is reserved or has no meaning. -/
lemma fetchNext_cases :
    (∃ fault cursor bus,
      fetchNext.run b = (.error fault, ⟨b.cpu.begin.continueAt cursor, bus⟩)) ∨
    (∃ i cursor bus, fetchNext.run b =
      (.ok i, ⟨if i.redirects then (b.cpu.begin.continueAt cursor).redirect
        else b.cpu.begin.continueAt cursor, bus⟩)) := by
  obtain ⟨found, cursor, bus, -, fetch⟩ := b.fetchNext_run
  cases found with
  | none => exact .inl ⟨_, cursor, bus, fetch⟩
  | some i => exact .inr ⟨i, cursor, bus, fetch.trans (redirect_run i _)⟩

/-- What is left when an instruction has been fetched. -/
lemma fetchNext_ok {c : Machine β} {i : Instruction} (fetched : fetchNext.run b = (.ok i, c)) :
    ∃ cursor bus, c = ⟨if i.redirects then (b.cpu.begin.continueAt cursor).redirect
      else b.cpu.begin.continueAt cursor, bus⟩ := by
  obtain ⟨fault, cursor, bus, run⟩ | ⟨j, cursor, bus, run⟩ := b.fetchNext_cases
  · cases fetched.symm.trans run
  · cases fetched.symm.trans run
    exact ⟨cursor, bus, rfl⟩

/-- The instruction fetched is one that decoding finds. -/
lemma fetchNext_finds {P : Option Instruction → Prop} {i : Instruction}
    (finds : Decode.Finds P (Instruction.decode b.cpu.regs.pc
      ((Bus.fetch b.cpu.regs.pc).run b.bus).1 b.cpu.status : Decode β (Option Instruction)))
    (fetched : (fetchNext.run b).1 = .ok i) : P (some i) := by
  obtain ⟨found, cursor, bus, holds, fetch⟩ := b.fetchNext_run
  have property := holds P finds
  cases found with
  | none =>
    rw [fetch] at fetched
    cases fetched
  | some j =>
    have same := congrArg Prod.fst (fetch.trans (redirect_run j _))
    cases fetched.symm.trans same
    exact property

/-- What an instruction cycle does with what is fetched. -/
lemma executeOne_eq : executeOne.run b =
    (match (fetchNext.run b).1 with
      | .error fault =>
        modifyCpu (·.stop fault) >>= fun _ => (pure (.error fault) : Exec β (Except Fault Unit))
      | .ok i => execute i >>= fun _ => complete b.cpu.status.h >>= fun _ => pure (.ok ())).run
      (fetchNext.run b).2 := rfl

/-- An instruction cycle ends at a word without meaning, or executes the instruction fetched and
completes it. -/
lemma executeOne_cases :
    (∃ fault c, fetchNext.run b = (.error fault, c) ∧
      executeOne.run b = (.error fault, ⟨c.cpu.stop fault, c.bus⟩)) ∨
    (∃ i c, fetchNext.run b = (.ok i, c) ∧
      executeOne.run b =
        (.ok (), ((complete b.cpu.status.h).run ((execute i).run c).2).2)) := by
  have cycle := b.executeOne_eq
  rcases fetched : fetchNext.run b with ⟨fault | i, c⟩
  · left
    rw [fetched] at cycle
    exact ⟨fault, c, rfl, cycle⟩
  · right
    rw [fetched] at cycle
    exact ⟨i, c, rfl, cycle⟩

/-- An instruction cycle stops at a word with the high byte that has no meaning and nowhere else. The fault
tells the word and its address, and is latched. -/
lemma executeOne_fault {b e : Machine β} {fault : Fault} (run : executeOne.run b = (.error fault, e)) :
    let word := ((Bus.fetch b.cpu.regs.pc).run b.bus).1
    fault = .unimplementedOpcode b.cpu.regs.pc word ∧ word.extractLsb' 8 8 = 0xcf ∧
      e.cpu.fault = some fault := by
  intro word
  obtain ⟨fault', c, fetched, stopped⟩ | ⟨i, c, -, completed⟩ := b.executeOne_cases
  · cases run.symm.trans stopped
    obtain ⟨found, cursor, bus, holds, fetch⟩ := b.fetchNext_run
    have byte := holds _ (Decode.decode_none b.cpu.regs.pc word b.cpu.status)
    cases found with
    | none =>
      cases fetched.symm.trans fetch
      exact ⟨rfl, byte rfl, rfl⟩
    | some i => cases fetched.symm.trans (fetch.trans (redirect_run i _))
  · cases run.symm.trans completed

end Machine

end E1Machine
