/-!
# Sparse tables

A table over the numbers below `2 ^ depth` of which few entries differ from a default: a binary tree
that branches on the bits of the key, lowest first, and stores nothing for untouched parts.

Main statement: `read_write`, an entry reads back what was written to it last.
-/

namespace E1Machine

/-- A table of `2 ^ depth` entries. -/
inductive Sparse (α : Type) : Nat → Type where
  /-- All entries have the default value. -/
  | blank {depth : Nat} : Sparse α depth
  /-- A single entry. -/
  | entry (value : α) : Sparse α 0
  /-- The entries at even and at odd keys. -/
  | fork {depth : Nat} (even odd : Sparse α depth) : Sparse α (depth + 1)

namespace Sparse

variable {α : Type}

/-- The entry at a key; `default` where nothing was written. -/
def read (default : α) : {depth : Nat} → Sparse α depth → Nat → α
  | _, blank, _ => default
  | _, entry value, _ => value
  | _, fork even odd, key =>
    if key % 2 = 1 then odd.read default (key / 2) else even.read default (key / 2)

/-- Replaces the entry at a key. -/
def write : {depth : Nat} → Sparse α depth → Nat → α → Sparse α depth
  | 0, _, _, value => entry value
  | _ + 1, blank, key, value =>
    if key % 2 = 1 then fork blank (blank.write (key / 2) value)
    else fork (blank.write (key / 2) value) blank
  | _ + 1, fork even odd, key, value =>
    if key % 2 = 1 then fork even (odd.write (key / 2) value)
    else fork (even.write (key / 2) value) odd

/-- A blank table holds the default under every key. -/
@[simp] theorem read_blank (default : α) {depth : Nat} (key : Nat) :
    (blank : Sparse α depth).read default key = default := by
  cases depth <;> rfl

/-- What was written under a key is read back, and the values under other keys are as before. -/
theorem read_write (default : α) {depth : Nat} (t : Sparse α depth) (a b : Nat) (value : α)
    (ha : a < 1 <<< depth) (hb : b < 1 <<< depth) :
    (t.write a value).read default b = if a = b then value else t.read default b := by
  induction depth generalizing a b with
  | zero =>
    have : a = b := by omega
    simp [write, read, this]
  | succ depth ih =>
    have step (u : Sparse α depth) := ih u (a / 2) (b / 2) (by omega) (by omega)
    have half (h : a % 2 = b % 2) : (a / 2 = b / 2) = (a = b) := propext (by omega)
    have odd_ne (h : a % 2 ≠ b % 2) : a ≠ b := by omega
    cases t <;> by_cases pa : a % 2 = 1 <;> by_cases pb : b % 2 = 1
    all_goals first
      | simp [write, read, pa, pb, step, half (by omega)]
      | simp [write, read, pa, pb, odd_ne (by omega)]

end Sparse

end E1Machine
