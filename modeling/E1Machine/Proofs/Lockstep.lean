import E1Machine.Proofs.Cycle

/-!
# Two machines in lockstep

Two machines that are related by a congruence of whole instruction cycles, on buses that answer alike,
stay related when both run an instruction: they fetch the same one, end with the same result, and take
the same interrupt.
-/

namespace E1Machine

/-- A relation that every part of an instruction cycle keeps, and under which both sides see the same
delayed branch and the same interrupt. -/
structure Cpu.CycleCongruence (R : Cpu → Cpu → Prop) : Prop extends Cpu.Congruence R where
  delay_eq {c d : Cpu} : R c d → c.delay = d.delay
  due_eq {c d : Cpu} : R c d → c.interruptDue = d.interruptDue
  stop {c d : Cpu} (fault : Fault) : R c d → R (c.stop fault) (d.stop fault)
  delayTo {c d : Cpu} (target : Word) : R c d → R (c.delayTo target) (d.delayTo target)
  setHigh {c d : Cpu} (high : Bool) : R c d →
    R (c.modifyStatus fun s => { s with h := high }) (d.modifyStatus fun s => { s with h := high })
  retire {c d : Cpu} : R c d → R c.retire d.retire
  expires_iff {c d : Cpu} : R c d → (c.retire.lockout = 0 ↔ d.retire.lockout = 0)
  takeInterrupt {c d : Cpu} (source : InterruptSource) : R c d →
    R (c.takeInterrupt source) (d.takeInterrupt source)

namespace Cpu.CycleCongruence

variable {R : Cpu → Cpu → Prop} (h : CycleCongruence R) {c d : Cpu}
include h

/-- Related processors finish an instruction alike, and the lockout runs out on both or on neither. -/
lemma finish (r : R c d) (wasHigh : Bool) :
    R (c.finish wasHigh) (d.finish wasHigh) ∧
      ((c.finish wasHigh).lockout = 0 ↔ (d.finish wasHigh).lockout = 0) := by
  have high : R (c.modifyStatus fun s => { s with h := s.h ^^ wasHigh })
      (d.modifyStatus fun s => { s with h := s.h ^^ wasHigh }) := by
    show R (c.modifyStatus fun s => { s with h := c.status.h ^^ wasHigh })
      (d.modifyStatus fun s => { s with h := d.status.h ^^ wasHigh })
    rw [h.status_eq r]
    exact h.setHigh _ r
  have noted := h.noteLength high d.length
  unfold Cpu.finish
  dsimp only
  rw [h.length_eq r, h.status_eq noted, h.delay_eq noted]
  have traced (condition : Bool) := h.raiseIf noted condition .trace
  exact ⟨h.retire (traced _), h.expires_iff (traced _)⟩

end Cpu.CycleCongruence

namespace Machine

variable {β β' : Type} [Bus β] [Bus β'] {R : Cpu → Cpu → Prop} {S : β → β' → Prop}
  (h : Cpu.CycleCongruence R) (hS : AnswersAlike S)
include h hS

/-- Both machines take the same interrupt, or neither takes one. -/
lemma checkInterrupts_related :
    Related R R S Eq (checkInterrupts : Exec β Unit) (checkInterrupts : Exec β' Unit) := by
  refine .bind .getCpu fun c d r => ?_
  rw [h.due_eq r]
  cases d.interruptDue with
  | none => exact .pure rfl
  | some source =>
    refine .seq (.modifyCpu (h.takeInterrupt source)) ?_
    cases source with
    | timer => exact .pure rfl
    | line line => exact .onBus (hS.acknowledge line)

/-- Both machines complete an instruction alike. -/
lemma complete_related (wasHigh : Bool) :
    Related R R S Eq (complete wasHigh : Exec β Unit) (complete wasHigh : Exec β' Unit) := by
  intro m m' r s
  obtain ⟨finished, expires⟩ := h.finish r wasHigh
  rw [complete_run, complete_run]
  by_cases expired : (m.cpu.finish wasHigh).lockout = 0
  · rw [if_pos expired, if_pos (expires.mp expired)]
    exact checkInterrupts_related h hS finished s
  · rw [if_neg expired, if_neg (expired ∘ expires.mpr)]
    exact ⟨rfl, finished, s⟩

/-- Both machines run an instruction alike. Reading the tick count is what a relation must allow by
itself. -/
theorem executeOne_related {m : Machine β} {m' : Machine β'} (r : R m.cpu m'.cpu)
    (s : S m.bus m'.bus)
    (ticks : ∀ i, (fetchNext.run m).1 = .ok i → i.readsTicks → Cpu.KeepsTicks R) :
    (executeOne.run m).1 = (executeOne.run m').1 ∧
      R (executeOne.run m).2.cpu (executeOne.run m').2.cpu ∧
      S (executeOne.run m).2.bus (executeOne.run m').2.bus := by
  obtain ⟨same, fetched, requested⟩ := fetchNext_related hS h.toCongruence r s
  obtain ⟨fault, c, fetch, run⟩ | ⟨i, c, fetch, run⟩ := m.executeOne_cases <;>
  obtain ⟨fault', c', fetch', run'⟩ | ⟨i', c', fetch', run'⟩ := m'.executeOne_cases <;>
  rw [fetch, fetch'] at same fetched requested
  -- Both sides stop or both go on, because they have fetched the same.
  · cases same
    rw [run, run']
    exact ⟨rfl, h.stop fault fetched, requested⟩
  · cases same
  · cases same
  · cases same
    have related := execute_related hS h.charging i (ticks i (by rw [fetch]))
      (fun _ _ _ target r => h.delayTo target r)
    obtain ⟨-, executed, stored⟩ := related fetched requested
    rw [run, run', h.status_eq r]
    exact ⟨rfl, (complete_related h hS _ executed stored).2⟩

end Machine

end E1Machine
