import E1Machine.Bus.Basic

/-!
# Extension halfwords

Many instructions carry an operand in one or two halfwords after the instruction word. A cursor walks
the instruction stream; each decoder fetches the halfwords of one format, and its companion for
instructions that do not need the operand skips just as many without reading them.

The formats themselves are pure: `shortConst`, `longDisplacement` and so on say how the halfwords make
up a value.
-/

namespace E1Machine

/-! ## Formats -/

/-- The immediates that a five-bit code stands for: sixteen small numbers, then masks and negative
numbers. Codes 17 to 19 announce extension halfwords and have no value of their own. -/
def immediateValues : Vector Word 32 :=
  #v[0, 1, 2, 3, 4, 5, 6, 7, 8, 9, 10, 11, 12, 13, 14, 15, 16, 0, 0, 0, 32, 64, 128, 0x80000000,
    -8, -7, -6, -5, -4, -3, -2, -1]

/-- The five-bit operand of an instruction word: bit 8, then bits 0 to 3. -/
def nField (word : Half) : Nat := (word.extractLsb' 8 1 ++ word.extractLsb' 0 4).toNat

/-- A constant of one halfword: fifteen bits, sign-extended. -/
def shortConst (first : Half) : Word := (first.extractLsb' 0 15).signExtend 32

/-- A constant of two halfwords: thirty-one bits, sign-extended. -/
def longConst (first second : Half) : Word := (first.extractLsb' 0 15 ++ second).signExtend 32

/-- A branch offset within the instruction word: even, with the sign in bit 0. -/
def shortOffset (word : Half) : Word :=
  (word.extractLsb' 0 1 ++ word.extractLsb' 1 6 ++ 0#1).signExtend 32

/-- A branch offset with an extension halfword: even, with the sign in bit 0 of the extension. -/
def longOffset (word first : Half) : Word :=
  (first.extractLsb' 0 1 ++ word.extractLsb' 0 7 ++ first.extractLsb' 1 15 ++ 0#1).signExtend 32

/-- A displacement of one halfword: thirteen bits with the sign in bit 14. -/
def shortDisplacement (first : Half) : Word :=
  (first.extractLsb' 14 1 ++ first.extractLsb' 0 12).signExtend 32

/-- A displacement of two halfwords: twenty-nine bits with the sign in bit 14 of the first. -/
def longDisplacement (first second : Half) : Word :=
  (first.extractLsb' 14 1 ++ first.extractLsb' 0 12 ++ second).signExtend 32

/-- An index limit of one halfword: twelve bits. -/
def shortLimit (first : Half) : Word := (first.extractLsb' 0 12).setWidth 32

/-- An index limit of two halfwords: twenty-eight bits. -/
def longLimit (first second : Half) : Word := (first.extractLsb' 0 12 ++ second).setWidth 32

/-- The displacement of a load or store. -/
structure Displacement where
  /-- Which kind of access. -/
  subType : BitVec 2
  /-- The displacement; its low two bits may select the kind of access further. -/
  value : Word
  deriving DecidableEq, Repr

/-- The limit of an index move. -/
structure IndexLimit where
  /-- The scale of the index, and in the top bit whether the limit is ignored. -/
  subType : BitVec 3
  /-- The greatest index allowed. -/
  limit : Word
  deriving DecidableEq, Repr

/-! ## The cursor -/

/-- A place in the instruction stream and the length of the instruction so far. -/
structure Cursor where
  /-- The address of the next halfword. -/
  pc : Word
  /-- The length in halfwords. -/
  length : Nat := 1
  deriving DecidableEq, Repr

/-- Decoding with a cursor over a bus. -/
abbrev Decode (β : Type) := StateT Cursor (StateM β)

namespace Decode

variable {β : Type}

/-- Sets the length of the instruction. -/
def setLength (halfwords : Nat) : Decode β Unit := modify fun c => { c with length := halfwords }

/-- Passes over the only `halfwords` extension halfwords of the instruction. -/
def skip (halfwords : Nat) : Decode β Unit :=
  modify fun c => ⟨c.pc + BitVec.ofNat 32 (2 * halfwords), 1 + halfwords⟩

variable [Bus β]

/-- Fetches the next halfword. -/
def halfword : Decode β Half := fun c => do
  let h ← Bus.fetch c.pc
  return (h, { c with pc := c.pc + 2 })

/-- The immediate that a four-bit code selects: 1 fetches a word, 2 and 3 a halfword that is extended
with zeros or ones, the rest name a fixed value. -/
def codedImmediate (word : Half) : Decode β Word := do
  match (word.extractLsb' 0 4).toNat with
  | 1 =>
    let high ← halfword
    let low ← halfword
    setLength 3
    return high ++ low
  | 2 =>
    let value ← halfword
    setLength 2
    return 0#16 ++ value
  | 3 =>
    let value ← halfword
    setLength 2
    return 0xffff#16 ++ value
  | code => return immediateValues.toArray.getD (16 + code) 0

/-- Skips what `codedImmediate` fetches. -/
def skipCodedImmediate (word : Half) : Decode β Unit :=
  match (word.extractLsb' 0 4).toNat with
  | 1 => skip 2
  | 2 | 3 => skip 1
  | _ => setLength 1

/-- The immediate of an instruction word: its low four bits, or with bit 8 set what they select. -/
def immediate (word : Half) : Decode β Word :=
  if word.getLsbD 8 then codedImmediate word else return (word.extractLsb' 0 4).setWidth 32

/-- Skips what `immediate` fetches. -/
def skipImmediate (word : Half) : Decode β Unit := do
  if word.getLsbD 8 then skipCodedImmediate word

/-- A constant of one or two halfwords, two when bit 15 of the first is set. -/
def const : Decode β Word := do
  let first ← halfword
  if first.msb then
    let second ← halfword
    setLength 3
    return longConst first second
  else
    setLength 2
    return shortConst first

/-- A branch offset; bit 7 of the instruction word asks for an extension halfword. -/
def offset (word : Half) : Decode β Word := do
  if word.getLsbD 7 then
    let first ← halfword
    setLength 2
    return longOffset word first
  else
    return shortOffset word

/-- Skips what `offset` fetches. -/
def skipOffset (word : Half) : Decode β Unit := do
  if word.getLsbD 7 then skip 1

/-- The displacement of a load or store. -/
def displacement : Decode β Displacement := do
  let first ← halfword
  let subType := first.extractLsb' 12 2
  if first.msb then
    let second ← halfword
    setLength 3
    return ⟨subType, longDisplacement first second⟩
  else
    setLength 2
    return ⟨subType, shortDisplacement first⟩

/-- The limit of an index move. -/
def indexLimit : Decode β IndexLimit := do
  let first ← halfword
  let subType := first.extractLsb' 12 3
  if first.msb then
    let second ← halfword
    setLength 3
    return ⟨subType, longLimit first second⟩
  else
    setLength 2
    return ⟨subType, shortLimit first⟩

/-- The function of a signal-processing instruction. -/
def function : Decode β Half := do
  let f ← halfword
  setLength 2
  return f

end Decode

end E1Machine
