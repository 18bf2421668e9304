import E1Machine.Status

/-!
# Conditions

What conditional branches, traps and `SET` instructions test. All of them draw on one set of
conditions over the flags; each kind of instruction numbers its conditions in its own way.
-/

namespace E1Machine

/-- A condition on the flags, named for what it says of `d` and `s` after comparing them. -/
inductive Condition where
  /-- `V`: the signed difference is not representable. -/
  | overflow
  /-- Not `V`. -/
  | noOverflow
  /-- `Z`. -/
  | equal
  /-- Not `Z`. -/
  | notEqual
  /-- `C`: unsigned `d < s`. -/
  | smaller
  /-- Not `C`: unsigned `d ≥ s`. -/
  | higherOrEqual
  /-- `C` or `Z`: unsigned `d ≤ s`. -/
  | smallerOrEqual
  /-- Neither `C` nor `Z`: unsigned `d > s`. -/
  | higher
  /-- `N`: signed `d < s`. -/
  | less
  /-- Not `N`: signed `d ≥ s`. -/
  | greaterOrEqual
  /-- `N` or `Z`: signed `d ≤ s`. -/
  | lessOrEqual
  /-- Neither `N` nor `Z`: signed `d > s`. -/
  | greater
  /-- Met in every state. -/
  | always
  deriving DecidableEq, Repr

namespace Condition

/-- Whether the flags meet the condition. -/
def holds (s : Status) : Condition → Bool
  | overflow => s.v
  | noOverflow => !s.v
  | equal => s.z
  | notEqual => !s.z
  | smaller => s.c
  | higherOrEqual => !s.c
  | smallerOrEqual => s.c || s.z
  | higher => !(s.c || s.z)
  | less => s.n
  | greaterOrEqual => !s.n
  | lessOrEqual => s.n || s.z
  | greater => !(s.n || s.z)
  | always => true

/-- The conditions of branches and delayed branches, in the order of their codes. -/
def branches : List Condition :=
  [overflow, noOverflow, equal, notEqual, smaller, higherOrEqual, smallerOrEqual, higher, less,
    greaterOrEqual, lessOrEqual, greater]

/-- The condition with a branch code; codes from twelve on are other instructions. -/
def ofBranchCode (code : Nat) : Option Condition := branches[code]?

/-- The condition with a trap code; codes below four are no trap. -/
def ofTrapCode : Nat → Option Condition
  | 4 => some lessOrEqual
  | 5 => some greater
  | 6 => some less
  | 7 => some greaterOrEqual
  | 8 => some smallerOrEqual
  | 9 => some higher
  | 10 => some smaller
  | 11 => some higherOrEqual
  | 12 => some equal
  | 13 => some notEqual
  | 14 => some overflow
  | 15 => some always
  | _ => none

/-- The condition with a `SET` code: as for traps, with "no overflow" in the last place. -/
def ofSetCode (code : Nat) : Option Condition :=
  if code = 15 then some noOverflow else ofTrapCode code

end Condition

end E1Machine
