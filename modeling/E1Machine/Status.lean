import E1Machine.Word
import E1Machine.Text.Hex

/-!
# The status register

Global register 1 packs the condition flags, the mode bits and the description of the current frame.
Here it is a structure with one entry per field, so that a field that an operation does not name is
unchanged by definition; `Status.bits` and `Status.ofBits` give the packed word, with bit 0 first
declared.

Main statements: `Status.ofBits_bits` and `Status.bits_ofBits`, the two packings are inverse.
-/

namespace E1Machine

/-- The status register, lowest bit first. -/
structure Status where
  /-- Bit 0: carry or borrow. -/
  c : Bool := false
  /-- Bit 1: zero result. -/
  z : Bool := false
  /-- Bit 2: negative result. -/
  n : Bool := false
  /-- Bit 3: signed overflow. -/
  v : Bool := false
  /-- Bit 4: cleared by every taken branch. -/
  m : Bool := false
  /-- Bit 5: the next move addresses the high global registers. -/
  h : Bool := false
  /-- Bit 6: reserved; register writes clear it. -/
  reserved : Bool := false
  /-- Bit 7: interrupt mode. -/
  i : Bool := false
  /-- Bits 8 to 12: floating-point trap enable. -/
  fte : BitVec 5 := 0
  /-- Bits 13 and 14: floating-point rounding mode. -/
  frm : BitVec 2 := 0
  /-- Bit 15: interrupt lock. -/
  l : Bool := false
  /-- Bit 16: trace enable. -/
  t : Bool := false
  /-- Bit 17: trace pending. -/
  p : Bool := false
  /-- Bit 18: supervisor state. -/
  s : Bool := false
  /-- Bits 19 and 20: length of the last instruction in halfwords. -/
  ilc : BitVec 2 := 0
  /-- Bits 21 to 24: frame length as encoded, zero standing for sixteen. -/
  fl : BitVec 4 := 0
  /-- Bits 25 to 31: frame pointer into the local register bank. -/
  fp : BitVec 7 := 0
  deriving DecidableEq, Repr

namespace Status

/-! ## The packed word -/

/-- The packed word. -/
def bits (s : Status) : Word :=
  s.fp ++ s.fl ++ s.ilc ++ BitVec.ofBool s.s ++ BitVec.ofBool s.p ++ BitVec.ofBool s.t ++
    BitVec.ofBool s.l ++ s.frm ++ s.fte ++ BitVec.ofBool s.i ++ BitVec.ofBool s.reserved ++
    BitVec.ofBool s.h ++ BitVec.ofBool s.m ++ BitVec.ofBool s.v ++ BitVec.ofBool s.n ++
    BitVec.ofBool s.z ++ BitVec.ofBool s.c

/-- The fields of a packed word. -/
def ofBits (w : Word) : Status where
  c := w.getLsbD 0
  z := w.getLsbD 1
  n := w.getLsbD 2
  v := w.getLsbD 3
  m := w.getLsbD 4
  h := w.getLsbD 5
  reserved := w.getLsbD 6
  i := w.getLsbD 7
  fte := w.extractLsb' 8 5
  frm := w.extractLsb' 13 2
  l := w.getLsbD 15
  t := w.getLsbD 16
  p := w.getLsbD 17
  s := w.getLsbD 18
  ilc := w.extractLsb' 19 2
  fl := w.extractLsb' 21 4
  fp := w.extractLsb' 25 7

/-- The bits of a status register determine it. -/
theorem ofBits_bits (s : Status) : ofBits s.bits = s := by
  cases s
  simp only [ofBits, bits, mk.injEq]
  refine ⟨?_, ?_, ?_, ?_, ?_, ?_, ?_, ?_, ?_, ?_, ?_, ?_, ?_, ?_, ?_, ?_, ?_⟩
  case refine_9 | refine_10 | refine_15 | refine_16 | refine_17 =>
    apply BitVec.eq_of_getLsbD_eq
    intro i hi
    simp only [BitVec.getLsbD_extractLsb', BitVec.getLsbD_append, hi, decide_true, Bool.true_and]
    rcases i with _ | _ | _ | _ | _ | _ | _ | i <;> first | omega | simp
  all_goals
    simp only [BitVec.getLsbD_append]
    simp

/-- Every word is the bits of a status register. -/
theorem bits_ofBits (w : Word) : (ofBits w).bits = w := by
  apply BitVec.eq_of_getLsbD_eq
  intro i hi
  simp only [bits, ofBits, BitVec.getLsbD_append]
  rcases i with _ | _ | _ | _ | _ | _ | _ | _ | _ | _ | _ | _ | _ | _ | _ | _ | _ | _ | _ | _ | _ |
    _ | _ | _ | _ | _ | _ | _ | _ | _ | _ | _ | i
  all_goals first | omega | simp

/-! ## Fields as numbers -/

/-- The number of registers in the current frame: an encoded zero means sixteen. -/
def frameLength (s : Status) : Nat := if s.fl = 0 then 16 else s.fl.toNat

/-- The carry flag as a word, the form that carry-chained arithmetic adds. -/
def carry (s : Status) : Word := ofFlag s.c

/-! ## Updates of several fields -/

/-- Sets `Z` and `N` from a 32-bit result. -/
def setResult (s : Status) (value : Word) : Status := { s with z := value == 0, n := value.msb }

/-- Sets the flags of a logical result: `Z` and `N` from the value, `V` and `C` cleared. -/
def setLogical (s : Status) (value : Word) : Status :=
  { s with z := value == 0, n := value.msb, v := false, c := false }

/-- Replaces the low sixteen bits. The mode bits above them and the frame description stay. -/
def setLow (s : Status) (value : Word) : Status :=
  { ofBits value with t := s.t, p := s.p, s := s.s, ilc := s.ilc, fl := s.fl, fp := s.fp }

/-- What a register write leaves: the low sixteen bits replaced, the reserved bit clear. -/
def write (s : Status) (value : Word) : Status := { s.setLow value with reserved := false }

/-- Opens the frame that follows the current one, of the given encoded length. -/
def openFrame (s : Status) (length : BitVec 4) : Status :=
  { s with fp := s.fp + BitVec.ofNat 7 s.frameLength, fl := length }

/-- The low sixteen bits of a replaced status are those of the new value. -/
theorem setLow_setLow (s : Status) (a b : Word) : (s.setLow a).setLow b = s.setLow b := rfl

/-! ## Text -/

/-- Twelve columns `S P T L I ? H M V N Z C`, a dot for a clear flag, then the numeric fields. -/
def text (s : Status) : String :=
  let columns := [(s.s, 'S'), (s.p, 'P'), (s.t, 'T'), (s.l, 'L'), (s.i, 'I'), (s.reserved, '?'),
    (s.h, 'H'), (s.m, 'M'), (s.v, 'V'), (s.n, 'N'), (s.z, 'Z'), (s.c, 'C')]
  String.ofList (columns.map fun (set, letter) => if set then letter else '.') ++
    " FTE:" ++ upperHex s.fte.toNat ++ " FRM:" ++ upperHex s.frm.toNat ++
    " ILC:" ++ toString s.ilc.toNat ++ " FL:" ++ toString s.frameLength ++
    " FP:" ++ toString s.fp.toNat

end Status

end E1Machine
