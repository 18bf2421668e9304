import E1Machine.Bus.Flat
import E1Machine.Proofs.GeneralRegisters
import E1Machine.Proofs.Moves
import Mathlib

/-!
# Numbers of several words

Sums and differences of numbers of several words are taken word by word from the lowest up: the first step has no
carry, and each other one takes the carry and the zero flag of the step below it. Between the steps a program can
do anything that leaves these two flags alone, so the words need not all be in registers.

Main statement: `Machine.multiword_exact`, the steps compute the sum or the difference of the whole numbers, and
the flags describe it as they would describe that of two words.
-/

namespace E1Machine

/-! ## Operations -/

/-- An operation on numbers of several words. -/
inductive LongOp where
  | sum
  | difference
  deriving DecidableEq, Repr

namespace LongOp

variable {w : Nat}

/-- The instruction for the lowest words. -/
def lowest : LongOp → Operand → Operand → Instruction
  | sum, dst, src => .add dst (.register src) false
  | difference, dst, src => .sub dst src false

/-- The instruction for any other words. -/
def higher : LongOp → Operand → Operand → Instruction
  | sum, dst, src => .addCarry dst src
  | difference, dst, src => .subCarry dst src

/-- A step of the operation on words. -/
def adder : LongOp → Word → Word → Bool → AdderResult
  | sum => addWithCarry
  | difference => subWithBorrow

/-- The result, modulo the width. -/
def value : LongOp → BitVec w → BitVec w → BitVec w
  | sum, a, b => a + b
  | difference, a, b => a - b

/-- The carry or borrow out of the whole number. -/
def carry : LongOp → BitVec w → BitVec w → Bool
  | sum, a, b => a.uaddOverflow b
  | difference, a, b => a.usubOverflow b

/-- Whether the result is out of the range of signed numbers. -/
def overflow : LongOp → BitVec w → BitVec w → Bool
  | sum, a, b => a.saddOverflow b
  | difference, a, b => a.ssubOverflow b

/-- Signed overflow is seen by the signs of the operands and of the result. -/
def overflowOfSigns : LongOp → Bool → Bool → Bool → Bool
  | sum, a, b, r => a == b && r != a
  | difference, a, b, r => a != b && r != a

/-- The overflow of a whole number shows in its signs. -/
lemma overflow_eq (op : LongOp) (a b : BitVec w) :
    op.overflow a b = op.overflowOfSigns a.msb b.msb (op.value a b).msb := by
  cases op with
  | sum =>
    show a.saddOverflow b = (a.msb == b.msb && (a + b).msb != a.msb)
    rw [BitVec.saddOverflow_eq]
    rfl
  | difference =>
    show a.ssubOverflow b = (a.msb != b.msb && (a - b).msb != a.msb)
    rw [BitVec.ssubOverflow_eq]
    cases a.msb <;> cases b.msb <;> cases (a - b).msb <;> rfl

/-- The overflow of a step shows in the signs of its words. -/
lemma adder_overflow (op : LongOp) (a b : Word) (carry : Bool) :
    (op.adder a b carry).overflow = op.overflowOfSigns a.msb b.msb (op.adder a b carry).value.msb := by
  cases op <;> rfl

end LongOp

/-! ## Words one above the other -/

/-- An append is the upper part times a power of two, and the lower part. -/
lemma toNat_append {v w : Nat} (x : BitVec v) (a : BitVec w) :
    (x ++ a).toNat = x.toNat * 2 ^ w + a.toNat := by
  rw [BitVec.toNat_append, ← Nat.shiftLeft_add_eq_or_of_lt a.isLt, Nat.shiftLeft_eq]

/-- A number is zero exactly if all its words are. -/
lemma append_beq_zero {v w : Nat} (x : BitVec v) (a : BitVec w) : (x ++ a == 0) = (x == 0 && a == 0) := by
  rw [Bool.eq_iff_iff, Bool.and_eq_true, beq_iff_eq, beq_iff_eq, beq_iff_eq, ← BitVec.toNat_inj,
    ← BitVec.toNat_inj, ← BitVec.toNat_inj, toNat_append]
  simp

/-- The sign of a number is that of its highest word. -/
lemma msb_append {w : Nat} (x : Word) (a : BitVec w) : (x ++ a).msb = x.msb :=
  BitVec.msb_append.trans (if_neg (by decide))

/-! ## Carries -/

/-- A flag as a word is one or zero. -/
lemma toNat_ofFlag (b : Bool) : (ofFlag b).toNat = b.toNat := by
  cases b <;> rfl

/-- Adding `a`, `b` and a carry gives `r` and a carry out. -/
def Carries {w : Nat} (a b r : BitVec w) (carryIn carryOut : Bool) : Prop :=
  a.toNat + b.toNat + carryIn.toNat = r.toNat + carryOut.toNat * 2 ^ w

namespace Carries

variable {w : Nat} {a b r : BitVec w} {c : Bool}

/-- The carry out of the lower words goes into the higher ones. -/
lemma append {v : Nat} {x y z : BitVec v} {carryIn carryOut : Bool} (high : Carries x y z c carryOut)
    (low : Carries a b r carryIn c) : Carries (x ++ a) (y ++ b) (z ++ r) carryIn carryOut := by
  unfold Carries at *
  rw [toNat_append, toNat_append, toNat_append]
  calc x.toNat * 2 ^ w + a.toNat + (y.toNat * 2 ^ w + b.toNat) + carryIn.toNat
      = (x.toNat + y.toNat) * 2 ^ w + (a.toNat + b.toNat + carryIn.toNat) := by ring
    _ = (x.toNat + y.toNat + c.toNat) * 2 ^ w + r.toNat := by rw [low]; ring
    _ = z.toNat * 2 ^ w + r.toNat + carryOut.toNat * 2 ^ (v + w) := by rw [high]; ring

/-- Without a carry in, the sum is that of the words. -/
lemma value (carries : Carries a b r false c) : r = a + b := by
  apply BitVec.eq_of_toNat_eq
  have small := r.isLt
  rw [BitVec.toNat_add, show a.toNat + b.toNat = r.toNat + c.toNat * 2 ^ w from carries,
    Nat.add_mul_mod_self_right, Nat.mod_eq_of_lt small]

/-- The carry out of a sum is its overflow as numbers without a sign. -/
lemma carry (carries : Carries a b r false c) : c = a.uaddOverflow b := by
  have small := r.isLt
  have sum : a.toNat + b.toNat = r.toNat + c.toNat * 2 ^ w := carries
  unfold BitVec.uaddOverflow
  cases c with
  | false =>
    rw [Bool.toNat_false, Nat.zero_mul] at sum
    exact (decide_eq_false (by omega)).symm
  | true =>
    rw [Bool.toNat_true, Nat.one_mul] at sum
    exact (decide_eq_true (by omega)).symm

/-- A sum that gives back `a` takes `r` as the difference, and carries if a borrow was needed. -/
lemma difference (carries : Carries r b a false c) : r = a - b := by
  rw [carries.value, BitVec.add_sub_cancel]

/-- The borrow out of a difference is its overflow as numbers without a sign. -/
lemma borrow (carries : Carries r b a false c) : c = a.usubOverflow b := by
  have small := r.isLt
  have bounded := b.isLt
  have sum : r.toNat + b.toNat = a.toNat + c.toNat * 2 ^ w := carries
  unfold BitVec.usubOverflow
  cases c with
  | false =>
    rw [Bool.toNat_false, Nat.zero_mul] at sum
    exact (decide_eq_false (by omega)).symm
  | true =>
    rw [Bool.toNat_true, Nat.one_mul] at sum
    exact (decide_eq_true (by omega)).symm

end Carries

namespace LongOp

variable {w : Nat} {op : LongOp} {a b r : BitVec w} {c : Bool}

/-- With a carry into it, the operation on `a` and `b` gives `r` and a carry out: a difference is the sum that
gives back its first operand. -/
def Balances : LongOp → (a b r : BitVec w) → (carryIn carryOut : Bool) → Prop
  | sum, a, b, r => Carries a b r
  | difference, a, b, r => Carries r b a

/-- A step on upper words, with the carry out of the lower ones, goes on with an operation on both. -/
lemma Balances.append {v : Nat} {x y z : BitVec v} {carryIn carryOut : Bool}
    (high : op.Balances x y z c carryOut) (low : op.Balances a b r carryIn c) :
    op.Balances (x ++ a) (y ++ b) (z ++ r) carryIn carryOut := by
  cases op with
  | sum => exact Carries.append high low
  | difference => exact Carries.append high low

/-- Without a carry in, an operation that balances gives its result. -/
lemma Balances.value_eq (balances : op.Balances a b r false c) : r = op.value a b := by
  cases op with
  | sum => exact Carries.value balances
  | difference => exact Carries.difference balances

/-- Without a carry in, an operation that balances gives its carry. -/
lemma Balances.carry_eq (balances : op.Balances a b r false c) : c = op.carry a b := by
  cases op with
  | sum => exact Carries.carry balances
  | difference => exact Carries.borrow balances

/-- A step on words balances. -/
lemma adder_balances (op : LongOp) (a b : Word) (carry : Bool) :
    op.Balances a b (op.adder a b carry).value carry (op.adder a b carry).carry := by
  have smallA := a.isLt
  have smallB := b.isLt
  have one := carry.toNat_le
  cases op with
  | sum =>
    show a.toNat + b.toNat + carry.toNat =
      (a + b + ofFlag carry).toNat + (decide (0x100000000 ≤ a.toNat + b.toNat + carry.toNat)).toNat * 2 ^ 32
    -- What goes round in the sum is just what the carry says.
    rw [BitVec.toNat_add, BitVec.toNat_add, toNat_ofFlag]
    by_cases carries : 0x100000000 ≤ a.toNat + b.toNat + carry.toNat
    · rw [decide_eq_true carries, Bool.toNat_true]
      omega
    · rw [decide_eq_false carries, Bool.toNat_false]
      omega
  | difference =>
    show (a - b - ofFlag carry).toNat + b.toNat + carry.toNat =
      a.toNat + (decide (a.toNat < b.toNat + carry.toNat)).toNat * 2 ^ 32
    rw [BitVec.toNat_sub, BitVec.toNat_sub, toNat_ofFlag]
    by_cases borrows : a.toNat < b.toNat + carry.toNat
    · rw [decide_eq_true borrows, Bool.toNat_true]
      omega
    · rw [decide_eq_false borrows, Bool.toNat_false]
      omega

end LongOp

/-! ## One word -/

namespace Cpu

/-- A sum or difference that sets all flags stores its value. -/
lemma assign_stores (c : Cpu) {dst : Operand} (general : dst.IsGeneral) (value : Word)
    (flags : Status → Status) (keeps : (flags c.status).fp = c.status.fp) :
    Stores c dst value (flags c.status) ((c.assign dst value flags).charge .alu) := by
  have plain : c.assign dst value flags = (c.write dst value).modifyStatus flags := by
    unfold assign
    dsimp only
    rw [general.isPc_eq]
    rfl
  rw [plain]
  exact c.write_stores general value keeps _

end Cpu

namespace Machine

variable {β : Type} [Bus β] {op : LongOp} {dst src : Operand}

/-- The instruction for the lowest words stores their step and its flags. -/
lemma lowest_stores (m : Machine β) (op : LongOp) (general : dst.IsGeneral) (general' : src.IsGeneral) :
    let r := op.adder (m.cpu.read dst) (m.cpu.read src) false
    m.cpu.Stores dst r.value (r.apply m.cpu.status) ((execute (op.lowest dst src)).run m).2.cpu := by
  have read : m.cpu.readArith src = m.cpu.read src := if_neg (by rw [general'.isSr_eq]; exact nofun)
  rw [← read]
  cases op with
  | sum => exact m.cpu.assign_stores general _ (AdderResult.apply _) rfl
  | difference => exact m.cpu.assign_stores general _ (AdderResult.apply _) rfl

/-- The instruction for higher words stores their step with carry, and its flags. -/
lemma higher_stores (m : Machine β) (op : LongOp) (general : dst.IsGeneral) (general' : src.IsGeneral) :
    let r := op.adder (m.cpu.read dst) (m.cpu.read src) m.cpu.status.c
    m.cpu.Stores dst r.value (r.applyChained m.cpu.status)
      ((execute (op.higher dst src)).run m).2.cpu := by
  have read : m.cpu.readBeyondCarry src = m.cpu.read src := if_neg (by rw [general'.isSr_eq]; exact nofun)
  rw [← read]
  cases op with
  | sum => exact m.cpu.assign_stores general _ (AdderResult.applyChained _) rfl
  | difference => exact m.cpu.assign_stores general _ (AdderResult.applyChained _) rfl

/-! ## All words -/

/-- The steps of an operation on `a` and `b` lead to a machine and leave `r` in the registers of the destination.
Each finds its two words in general registers; before a step that is not the first, anything can happen that leaves
the carry and the zero flag as the step below has set them. -/
inductive Chained (op : LongOp) : {w : Nat} → (a b r : BitVec w) → Machine β → Prop where
  | first (m : Machine β) {dst src : Operand} (general : dst.IsGeneral) (general' : src.IsGeneral)
    {after : Machine β} (run : after = ((execute (op.lowest dst src)).run m).2) :
    Chained op (m.cpu.read dst) (m.cpu.read src) (after.cpu.read dst) after
  | next {w : Nat} {a b r : BitVec w} {done : Machine β} (chain : Chained op a b r done) (m : Machine β)
    (carry : m.cpu.status.c = done.cpu.status.c) (zero : m.cpu.status.z = done.cpu.status.z)
    {dst src : Operand} (general : dst.IsGeneral) (general' : src.IsGeneral)
    {after : Machine β} (run : after = ((execute (op.higher dst src)).run m).2) :
    Chained op (m.cpu.read dst ++ a) (m.cpu.read src ++ b) (after.cpu.read dst ++ r) after

namespace Chained

variable {w : Nat} {a b r : BitVec w} {m : Machine β}

/-- A chain balances, by induction on its words. -/
lemma balances (chain : Chained op a b r m) : op.Balances a b r false m.cpu.status.c := by
  induction chain with
  | first m general general' run =>
    obtain ⟨status, value, -⟩ := m.lowest_stores op general general'
    rw [run, value, status]
    exact op.adder_balances _ _ false
  | next _ m carry zero general general' run ih =>
    obtain ⟨status, value, -⟩ := m.higher_stores op general general'
    rw [run, value, status]
    rw [← carry] at ih
    exact (op.adder_balances _ _ _).append ih

/-- The zero flag of the steps is that of all words together. -/
lemma zero_eq (chain : Chained op a b r m) : m.cpu.status.z = (r == 0) := by
  induction chain with
  | first m general general' run =>
    obtain ⟨status, value, -⟩ := m.lowest_stores op general general'
    rw [run, value, status]
    rfl
  | next _ m carry zero general general' run ih =>
    obtain ⟨status, value, -⟩ := m.higher_stores op general general'
    rw [run, value, status, append_beq_zero, ← ih, ← zero, Bool.and_comm]
    rfl

/-- The signs are those of the highest words. -/
lemma signs (chain : Chained op a b r m) : m.cpu.status.n = r.msb ∧
    m.cpu.status.v = op.overflowOfSigns a.msb b.msb r.msb := by
  cases chain with
  | first m general general' run =>
    obtain ⟨status, value, -⟩ := m.lowest_stores op general general'
    rw [run, value, status]
    exact ⟨rfl, op.adder_overflow _ _ _⟩
  | next _ m carry zero general general' run =>
    obtain ⟨status, value, -⟩ := m.higher_stores op general general'
    rw [run, value, status, msb_append, msb_append, msb_append]
    exact ⟨rfl, op.adder_overflow _ _ _⟩

end Chained

/-- What an operation on `a` and `b` is to leave: the result, and the flags that describe it. -/
structure Exact {w : Nat} (op : LongOp) (a b r : BitVec w) (status : Status) : Prop where
  value : r = op.value a b
  carry : status.c = op.carry a b
  overflow : status.v = op.overflow a b
  negative : status.n = r.msb
  zero : status.z = (r == 0)

/-- What a chain leaves is exact, and its flags describe the whole number. -/
lemma Chained.exact {w : Nat} {a b r : BitVec w} {m : Machine β} (chain : Chained op a b r m) :
    Exact op a b r m.cpu.status := by
  have balances := chain.balances
  obtain ⟨negative, overflow⟩ := chain.signs
  refine ⟨balances.value_eq, balances.carry_eq, ?_, negative, chain.zero_eq⟩
  rw [overflow, balances.value_eq]
  exact (op.overflow_eq a b).symm

/-! ## Runs -/

omit [Bus β] in
/-- A program can load any two words without a change of flags. -/
lemma exists_loaded (m : Machine β) (x y : Word) : ∃ loaded : Machine β,
    loaded.cpu.status = m.cpu.status ∧
      loaded.cpu.read ⟨.locals, 0⟩ = x ∧ loaded.cpu.read ⟨.locals, 1⟩ = y := by
  have general := Operand.isGeneral_local
  refine ⟨⟨(m.cpu.write ⟨.locals, 0⟩ x).write ⟨.locals, 1⟩ y, m.bus⟩, rfl, ?_, ?_⟩
  · exact (Cpu.read_write_apart (general 1) _ (general 0) (by decide) y).trans
      (Cpu.read_write (general 0) _ x)
  · exact Cpu.read_write (general 1) _ y

/-- The steps can be taken for any two numbers of the same number of words. -/
lemma exists_chained (m : Machine β) (op : LongOp) (n : Nat) : ∀ {w : Nat}, w = 32 * (n + 1) →
    ∀ a b : BitVec w, ∃ (r : BitVec w) (after : Machine β), Chained op a b r after := by
  have general := Operand.isGeneral_local
  induction n with
  | zero =>
    rintro _ rfl a b
    obtain ⟨loaded, -, rfl, rfl⟩ := m.exists_loaded a b
    exact ⟨_, _, .first loaded (general 0) (general 1) rfl⟩
  | succ n ih =>
    intro w eq a b
    obtain ⟨v, lower, rfl⟩ : ∃ v, v = 32 * (n + 1) ∧ w = 32 + v := ⟨_, rfl, by omega⟩
    rw [← BitVec.extractLsb'_append_extractLsb' (x := a), ← BitVec.extractLsb'_append_extractLsb' (x := b)]
    obtain ⟨r, done, chain⟩ := ih lower (a.extractLsb' 0 v) (b.extractLsb' 0 v)
    obtain ⟨loaded, same, x, y⟩ := done.exists_loaded (a.extractLsb' v 32) (b.extractLsb' v 32)
    rw [← x, ← y]
    exact ⟨_, _, chain.next loaded (congrArg Status.c same) (congrArg Status.z same) (general 0)
      (general 1) rfl⟩

/-- The steps leave the sum or the difference of the whole numbers, modulo their width, and the flags that describe
it. They can be taken for any numbers of any number of words, and a step changes no general register but its
destination. -/
theorem multiword_exact (op : LongOp) :
    (∀ {w : Nat} {a b r : BitVec w} {m : Machine β}, Chained op a b r m → Exact op a b r m.cpu.status) ∧
    (∀ (_ : Machine β) (n : Nat) (a b : BitVec (32 * (n + 1))),
      ∃ (r : BitVec (32 * (n + 1))) (after : Machine β), Chained op a b r after) ∧
    ∀ (m : Machine β) {dst src p : Operand}, dst.IsGeneral → src.IsGeneral → p.IsGeneral → dst.Apart p →
      ((execute (op.lowest dst src)).run m).2.cpu.read p = m.cpu.read p ∧
      ((execute (op.higher dst src)).run m).2.cpu.read p = m.cpu.read p :=
  ⟨fun chain => chain.exact, fun m n a b => m.exists_chained op n rfl a b,
    fun m _ _ p general general' other apart =>
      ⟨(m.lowest_stores op general general').others p other apart,
        (m.higher_stores op general general').others p other apart⟩⟩

/-- A machine with the words of two numbers in pairs of local registers: the lower words of 2^32 - 1 and of 1 in
registers 2 and 3, and the higher ones in registers 4 and 5. -/
def twoWords : Machine (DeviceBus FlatMemory) :=
  (powerOn Variant.e132t.config {}).session
    [.host .reset, .host (.setLocal 2 0xffffffff), .host (.setLocal 3 1)]

/-- Their sum carries into the higher word, and not out of it. -/
theorem twoWords_exact :
    let lower := ((execute (LongOp.sum.lowest ⟨.locals, 2⟩ ⟨.locals, 3⟩)).run twoWords).2
    let all := ((execute (LongOp.sum.higher ⟨.locals, 4⟩ ⟨.locals, 5⟩)).run lower).2
    Exact .sum (0xffffffff : BitVec 64) 1 0x100000000 all.cpu.status := by
  intro lower all
  have chain : Chained .sum (lower.cpu.read ⟨.locals, 4⟩ ++ twoWords.cpu.read ⟨.locals, 2⟩)
      (lower.cpu.read ⟨.locals, 5⟩ ++ twoWords.cpu.read ⟨.locals, 3⟩)
      (all.cpu.read ⟨.locals, 4⟩ ++ lower.cpu.read ⟨.locals, 2⟩) all :=
    .next (.first twoWords (by decide) (by decide) rfl) lower rfl rfl (by decide) (by decide) rfl
  have a : lower.cpu.read ⟨.locals, 4⟩ ++ twoWords.cpu.read ⟨.locals, 2⟩ = (0xffffffff : BitVec 64) := by
    decide +kernel
  have b : lower.cpu.read ⟨.locals, 5⟩ ++ twoWords.cpu.read ⟨.locals, 3⟩ = (1 : BitVec 64) := by
    decide +kernel
  have r : all.cpu.read ⟨.locals, 4⟩ ++ lower.cpu.read ⟨.locals, 2⟩ = (0x100000000 : BitVec 64) := by
    decide +kernel
  have exact := (multiword_exact .sum).1 chain
  rwa [a, b, r] at exact

end Machine

end E1Machine
