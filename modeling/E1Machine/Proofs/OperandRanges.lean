import Mathlib
import E1Machine.Bus.Flat
import E1Machine.Cursor

/-!
# Ranges of operands

Every format of operands takes its bits from certain places of the instruction word and of the halfwords after it.
Where the other bits of these are given, each row of bits is written in one way (`constBits_bijOn` and its
companions), and the rows of one width stand for the numbers of one range, each for its own
(`signExtend_bijOn`, `setWidth_bijOn`). So a decoder maps the encodings of a format one to one onto the range. It
fetches the halfwords of an encoding in a row, and nothing else, whatever the bus.

Main statement: `Decode.operands_onto`.
-/

namespace E1Machine

open Set

/-! ## Numbers of a width -/

/-- A number of the range is that of its low bits. -/
lemma toInt_ofInt {n : Nat} {i : ℤ} (within : i ∈ Ico (-2 ^ n) (2 ^ n)) :
    (BitVec.ofInt (n + 1) i).toInt = i := by
  obtain ⟨least, most⟩ := within
  rw [BitVec.toInt_ofInt]
  refine Int.bmod_eq_of_le ?_ ?_ <;> push_cast <;> rw [pow_succ] <;> omega

/-- The words that are the sign extension of `n + 1` bits. -/
lemma signExtend_bijOn {n : Nat} (fits : n + 1 ≤ 32) :
    BijOn (fun v : BitVec (n + 1) => v.signExtend 32) univ {w | w.toInt ∈ Ico (-2 ^ n) (2 ^ n)} := by
  have value (v : BitVec (n + 1)) : (v.signExtend 32).toInt = v.toInt := BitVec.toInt_signExtend_of_le fits
  refine ⟨fun v _ => ?_, fun v _ w _ same => ?_, fun w within => ?_⟩
  · show (v.signExtend 32).toInt ∈ Ico (-2 ^ n) (2 ^ n)
    rw [value]
    exact ⟨BitVec.le_toInt v, BitVec.toInt_lt⟩
  · rw [← BitVec.toInt_inj, ← value, ← value]
    exact congrArg BitVec.toInt same
  · exact ⟨.ofInt (n + 1) w.toInt, mem_univ _, BitVec.eq_of_toInt_eq ((value _).trans (toInt_ofInt within))⟩

/-- A word fits in `n + 1` bits exactly if its number is in the range. -/
lemma fitsSigned_iff {n : Nat} (fits : n + 1 ≤ 32) (w : Word) :
    fitsSigned (n + 1) w ↔ w.toInt ∈ Ico (-2 ^ n) (2 ^ n) := by
  have onto := signExtend_bijOn fits
  unfold fitsSigned
  rw [beq_iff_eq]
  constructor
  · intro same
    rw [← same]
    exact onto.mapsTo (mem_univ _)
  · intro within
    obtain ⟨v, -, rfl⟩ := onto.surjOn within
    have back : (v.signExtend 32).setWidth (n + 1) = v := by
      ext i below
      have inside : i < 32 := Nat.lt_of_lt_of_le below fits
      rw [BitVec.getElem_setWidth, BitVec.getLsbD_signExtend, if_pos below, decide_eq_true inside, Bool.true_and,
        BitVec.getLsbD_eq_getElem]
    exact congrArg (BitVec.signExtend 32) back

/-- The even words that are the sign extension of `n + 2` bits. -/
lemma signExtend_even_bijOn {n : Nat} (fits : n + 2 ≤ 32) :
    BijOn (fun v : BitVec (n + 1) => (v ++ 0#1).signExtend 32) univ
      {w | w.toInt ∈ Ico (-2 ^ (n + 1)) (2 ^ (n + 1)) ∧ Even w.toInt} := by
  have value (v : BitVec (n + 1)) : ((v ++ 0#1).signExtend 32).toInt = 2 * v.toInt := by
    rw [BitVec.toInt_signExtend_of_le fits, BitVec.toInt_append_zero]
    rfl
  refine ⟨fun v _ => ?_, fun v _ w _ same => ?_, ?_⟩
  · have least : -2 ^ n ≤ v.toInt := BitVec.le_toInt v
    have most : v.toInt < 2 ^ n := BitVec.toInt_lt
    show _ ∈ Ico _ _ ∧ Even _
    rw [value, pow_succ]
    exact ⟨⟨by omega, by omega⟩, even_two_mul _⟩
  · have double := congrArg BitVec.toInt same
    rw [value, value] at double
    exact BitVec.eq_of_toInt_eq (by omega)
  · rintro w ⟨⟨least, most⟩, half, even⟩
    rw [pow_succ] at least most
    have within : half ∈ Ico (-2 ^ n) (2 ^ n) := ⟨by omega, by omega⟩
    refine ⟨.ofInt (n + 1) half, mem_univ _, BitVec.eq_of_toInt_eq ?_⟩
    rw [value, toInt_ofInt within, even, two_mul]

/-- The words that are the extension of `n` bits with zeros. -/
lemma setWidth_bijOn {n : Nat} (fits : n ≤ 32) :
    BijOn (fun v : BitVec n => v.setWidth 32) univ {w | w.toNat < 2 ^ n} := by
  have value (v : BitVec n) : (v.setWidth 32).toNat = v.toNat := BitVec.toNat_setWidth_of_le fits
  refine ⟨fun v _ => ?_, fun v _ w _ same => ?_, fun w within => ?_⟩
  · show (v.setWidth 32).toNat < 2 ^ n
    rw [value]
    exact v.isLt
  · rw [← BitVec.toNat_inj, ← value, ← value]
    exact congrArg BitVec.toNat same
  · refine ⟨w.setWidth n, mem_univ _, BitVec.eq_of_toNat_eq ?_⟩
    rw [value, BitVec.toNat_setWidth, Nat.mod_eq_of_lt within]

/-! ## Rows of bits -/

/-- A row of bits that is written in one way, with a halfword behind it. -/
lemma append_bijOn {n : Nat} {bits : Half → BitVec n} {encodings : Set Half} (once : BijOn bits encodings univ) :
    BijOn (fun p : Half × Half => bits p.1 ++ p.2) {p | p.1 ∈ encodings} univ := by
  refine ⟨fun _ _ => mem_univ _, fun p inside q inside' same => ?_, fun v _ => ?_⟩
  · have high := congrArg (BitVec.extractLsb' 16 n) same
    have low := congrArg (BitVec.extractLsb' 0 16) same
    dsimp only at high low
    rw [BitVec.extractLsb'_append_eq_left, BitVec.extractLsb'_append_eq_left] at high
    rw [BitVec.extractLsb'_append_eq_right, BitVec.extractLsb'_append_eq_right] at low
    exact Prod.ext (once.injOn inside inside' high) low
  · obtain ⟨first, inside, high⟩ := once.surjOn (mem_univ (v.extractLsb' 16 n))
    refine ⟨(first, v.extractLsb' 0 16), inside, ?_⟩
    dsimp only
    rw [high]
    exact BitVec.extractLsb'_append_extractLsb'

section

variable (long : Bool)

/-- The fifteen bits of a constant in its first halfword. -/
lemma constBits_bijOn : BijOn (fun first : Half => first.extractLsb' 0 15) {first | first.msb = long} univ := by
  refine @InvOn.bijOn _ _ _ _ _ (fun v => (BitVec.ofBool long ++ v : Half)) ⟨?_, fun v _ => ?_⟩
    (fun _ _ => mem_univ _) fun v _ => ?_
  · rintro first rfl
    ext i
    grind
  · ext i
    grind
  · show (BitVec.ofBool long ++ v : Half).msb = long
    grind

/-- The thirteen bits of a displacement in its first halfword, where the kind of access is given. -/
lemma displacementBits_bijOn (kind : BitVec 2) :
    BijOn (fun first : Half => first.extractLsb' 14 1 ++ first.extractLsb' 0 12)
      {first | first.msb = long ∧ first.extractLsb' 12 2 = kind} univ := by
  refine @InvOn.bijOn _ _ _ _ _
    (fun v => (BitVec.ofBool long ++ v.extractLsb' 12 1 ++ kind ++ v.extractLsb' 0 12 : Half))
    ⟨?_, fun v _ => ?_⟩ (fun _ _ => mem_univ _) fun v _ => ⟨?_, ?_⟩
  · rintro first ⟨rfl, rfl⟩
    ext i
    grind
  · ext i
    grind
  · grind
  · ext i
    grind

/-- The twelve bits of an index limit in its first halfword, where the scale is given. -/
lemma limitBits_bijOn (scale : BitVec 3) :
    BijOn (fun first : Half => first.extractLsb' 0 12)
      {first | first.msb = long ∧ first.extractLsb' 12 3 = scale} univ := by
  refine @InvOn.bijOn _ _ _ _ _ (fun v => (BitVec.ofBool long ++ scale ++ v : Half)) ⟨?_, fun v _ => ?_⟩
    (fun _ _ => mem_univ _) fun v _ => ⟨?_, ?_⟩
  · rintro first ⟨rfl, rfl⟩
    ext i
    grind
  · ext i
    grind
  · grind
  · ext i
    grind

end

/-- The seven bits of an offset in the instruction word, where the operation is given. -/
lemma offsetBits_bijOn (byte : Byte) :
    BijOn (fun word : Half => word.extractLsb' 0 1 ++ word.extractLsb' 1 6)
      {word | word.extractLsb' 8 8 = byte ∧ word.getLsbD 7 = false} univ := by
  refine @InvOn.bijOn _ _ _ _ _ (fun v => (byte ++ 0#1 ++ v.extractLsb' 0 6 ++ v.extractLsb' 6 1 : Half))
    ⟨?_, fun v _ => ?_⟩ (fun _ _ => mem_univ _) fun v _ => ⟨?_, ?_⟩
  · rintro word ⟨rfl, short⟩
    ext i
    grind
  · have sign : (byte ++ 0#1 ++ v.extractLsb' 0 6 ++ v.extractLsb' 6 1).extractLsb' 0 1 = v.extractLsb' 6 1 :=
      BitVec.extractLsb'_append_eq_right
    have rest : (byte ++ 0#1 ++ v.extractLsb' 0 6 ++ v.extractLsb' 6 1).extractLsb' 1 6 = v.extractLsb' 0 6 :=
      (BitVec.extractLsb'_append_eq_of_le (Nat.le_refl 1)).trans BitVec.extractLsb'_append_eq_right
    exact (congrArg₂ (· ++ ·) sign rest).trans BitVec.extractLsb'_append_extractLsb'
  · ext i
    grind
  · grind

/-- The twenty-three bits of an offset in the instruction word and a halfword after it. -/
lemma longOffsetBits_bijOn (byte : Byte) :
    BijOn (fun p : Half × Half => p.2.extractLsb' 0 1 ++ p.1.extractLsb' 0 7 ++ p.2.extractLsb' 1 15)
      {p | p.1.extractLsb' 8 8 = byte ∧ p.1.getLsbD 7 = true} univ := by
  refine @InvOn.bijOn _ _ _ _ _
    (fun v => ((byte ++ 1#1 ++ v.extractLsb' 15 7 : Half), (v.extractLsb' 0 15 ++ v.extractLsb' 22 1 : Half)))
    ⟨?_, fun v _ => ?_⟩ (fun _ _ => mem_univ _) fun v _ => ⟨?_, ?_⟩
  -- Both directions are checked bit by bit; the rewriting before that puts nested extracts together.
  · rintro ⟨word, first⟩ ⟨rfl, long⟩
    have middle : (first.extractLsb' 0 1 ++ word.extractLsb' 0 7 ++ first.extractLsb' 1 15).extractLsb' 15 7 =
        word.extractLsb' 0 7 :=
      (BitVec.extractLsb'_append_eq_of_le (Nat.le_refl 15)).trans BitVec.extractLsb'_append_eq_right
    refine Prod.ext ?_ ?_
    · dsimp only
      rw [middle]
      ext i
      grind
    · ext i
      grind
  · have sign : (v.extractLsb' 0 15 ++ v.extractLsb' 22 1).extractLsb' 0 1 = v.extractLsb' 22 1 :=
      BitVec.extractLsb'_append_eq_right
    have low : (v.extractLsb' 0 15 ++ v.extractLsb' 22 1).extractLsb' 1 15 = v.extractLsb' 0 15 :=
      BitVec.extractLsb'_append_eq_left
    have middle : (byte ++ 1#1 ++ v.extractLsb' 15 7).extractLsb' 0 7 = v.extractLsb' 15 7 :=
      BitVec.extractLsb'_append_eq_right
    refine (congrArg₂ (· ++ ·) (congrArg₂ (· ++ ·) sign middle) low).trans ?_
    ext i
    grind
  · ext i
    grind
  · grind

/-- The values of a record with a word, where its other field is the same for all encodings. -/
lemma tagged_bijOn {ε κ δ : Type} {make : κ → Word → δ} {tag : δ → κ} {value : δ → Word}
    (made : ∀ d, make (tag d) (value d) = d) (tag_make : ∀ k w, tag (make k w) = k)
    (value_make : ∀ k w, value (make k w) = w) {kind : ε → κ} {word : ε → Word} {encodings : Set ε} {k : κ}
    (tagged : ∀ e ∈ encodings, kind e = k) {words : Set Word} (onto : BijOn word encodings words) :
    BijOn (fun e => make (kind e) (word e)) encodings {d | tag d = k ∧ value d ∈ words} := by
  refine ⟨fun e inside => ?_, fun e inside e' inside' same => ?_, ?_⟩
  · refine ⟨(tag_make _ _).trans (tagged e inside), ?_⟩
    rw [value_make]
    exact onto.mapsTo inside
  · have words := congrArg value same
    dsimp only at words
    rw [value_make, value_make] at words
    exact onto.injOn inside inside' words
  · rintro d ⟨rfl, within⟩
    obtain ⟨e, inside, is⟩ := onto.surjOn within
    refine ⟨e, inside, ?_⟩
    dsimp only
    rw [tagged e inside, is, made]

/-! ## Reading operands -/

namespace Decode

/-- Halfwords of the instruction stream in a row. -/
def row {β : Type} [Bus β] (pc : Word) : Nat → StateM β (List Half)
  | 0 => return []
  | n + 1 => do
    let first ← Bus.fetch pc
    let rest ← row (pc + 2) n
    return first :: rest

/-- A decoder finds a value in some halfwords. Where a bus holds these it fetches them in a row and nothing else,
and the cursor, when it comes from the instruction word, goes on behind them and has counted them. -/
def Reads {α : Type} (x : (β : Type) → [Bus β] → Decode β α) (halfwords : List Half) (a : α) : Prop :=
  ∀ (β : Type) [Bus β] (pc : Word) (b : β), ((row pc halfwords.length).run b).1 = halfwords →
    ((x β).run ⟨pc, 1⟩).run b =
      ((a, ⟨pc + BitVec.ofNat 32 (2 * halfwords.length), 1 + halfwords.length⟩),
        ((row pc halfwords.length).run b).2)

/-- The encodings of a set stand for the values of a set, one to one. -/
def ReadsOnto {ε α : Type} (x : ε → (β : Type) → [Bus β] → Decode β α) (halfwords : ε → List Half)
    (encodings : Set ε) (values : Set α) : Prop :=
  ∃ value : ε → α, (∀ e ∈ encodings, Reads (x e) (halfwords e) (value e)) ∧ BijOn value encodings values

variable {α : Type} (one : Half → α) (two : Half → Half → α)

/-- An operand of one halfword, or of two when bit 15 of the first is set. -/
def operand (β : Type) [Bus β] : Decode β α := do
  let first ← halfword
  if first.msb then
    let second ← halfword
    setLength 3
    return two first second
  else
    setLength 2
    return one first

/-- An operand of one halfword is found in it. -/
lemma reads_one {first : Half} (short : first.msb = false) :
    Reads (fun β => operand one two β) [first] (one first) := by
  intro β _ pc b given
  have held : ((Bus.fetch pc).run b).1 = first := (List.cons.inj given).1
  have run : ((operand one two β).run ⟨pc, 1⟩).run b =
      ((if ((Bus.fetch pc).run b).1.msb then
          halfword >>= fun second => setLength 3 >>= fun _ => pure (two ((Bus.fetch pc).run b).1 second)
        else setLength 2 >>= fun _ => pure (one ((Bus.fetch pc).run b).1) : Decode β α).run
          ⟨pc + 2, 1⟩).run ((Bus.fetch pc).run b).2 := rfl
  rw [run, held, short]
  rfl

/-- An operand of two halfwords is found in them. -/
lemma reads_two {first : Half} (long : first.msb = true) (second : Half) :
    Reads (fun β => operand one two β) [first, second] (two first second) := by
  intro β _ pc b given
  have held : ((Bus.fetch pc).run b).1 = first := (List.cons.inj given).1
  have next : ((Bus.fetch (pc + 2)).run ((Bus.fetch pc).run b).2).1 = second :=
    (List.cons.inj (List.cons.inj given).2).1
  have run : ((operand one two β).run ⟨pc, 1⟩).run b =
      ((if ((Bus.fetch pc).run b).1.msb then
          halfword >>= fun second => setLength 3 >>= fun _ => pure (two ((Bus.fetch pc).run b).1 second)
        else setLength 2 >>= fun _ => pure (one ((Bus.fetch pc).run b).1) : Decode β α).run
          ⟨pc + 2, 1⟩).run ((Bus.fetch pc).run b).2 := rfl
  have last : ((halfword >>= fun second => setLength 3 >>= fun _ => pure (two first second) : Decode β α).run
      ⟨pc + 2, 1⟩).run ((Bus.fetch pc).run b).2 =
      ((two first ((Bus.fetch (pc + 2)).run ((Bus.fetch pc).run b).2).1, ⟨pc + 2 + 2, 3⟩),
        ((Bus.fetch (pc + 2)).run ((Bus.fetch pc).run b).2).2) := rfl
  rw [run, held, long, if_pos rfl, last, next, BitVec.add_assoc]
  rfl

/-- The encodings of an operand in one halfword, with bit 15 clear, stand for its values. -/
lemma reads_onto_one {encodings : Set Half} {values : Set α} (short : ∀ first ∈ encodings, first.msb = false)
    (onto : BijOn one encodings values) :
    ReadsOnto (fun _ β => operand one two β) (fun first => [first]) encodings values :=
  ⟨one, fun _ inside => reads_one one two (short _ inside), onto⟩

/-- The encodings of an operand in two halfwords, with bit 15 of the first set, stand for its values. -/
lemma reads_onto_two {encodings : Set (Half × Half)} {values : Set α}
    (long : ∀ p ∈ encodings, p.1.msb = true) (onto : BijOn (fun p => two p.1 p.2) encodings values) :
    ReadsOnto (fun _ β => operand one two β) (fun p => [p.1, p.2]) encodings values :=
  ⟨fun p => two p.1 p.2, fun p inside => reads_two one two (long _ inside) p.2, onto⟩

/-- A short offset is found in the instruction word, and nothing is fetched. -/
lemma reads_shortOffset {word : Half} (short : word.getLsbD 7 = false) :
    Reads (fun _ => offset word) [] (shortOffset word) := by
  intro β _ pc b _
  unfold offset
  rw [short]
  exact congrArg (fun pc => ((shortOffset word, (⟨pc, 1⟩ : Cursor)), b)) (BitVec.add_zero pc).symm

/-- A long offset is found in the instruction word and the halfword after it. -/
lemma reads_longOffset {word : Half} (long : word.getLsbD 7 = true) (first : Half) :
    Reads (fun _ => offset word) [first] (longOffset word first) := by
  intro β _ pc b given
  have held : ((Bus.fetch pc).run b).1 = first := (List.cons.inj given).1
  rw [← held]
  unfold offset
  rw [long]
  rfl

/-- Constants, displacements, index limits and branch offsets stand for the numbers of their ranges, each of these
in one encoding of each length: those of a constant have 15 bits with a sign, or 31; those of a displacement 13 or
29, for each of the four kinds of access; those of an index limit 12 or 28 without a sign, for each of the eight
scales; those of an offset, for each operation, 8 or 24, of which the last is zero. Every decoder fetches the
halfwords of the encoding in a row, passes over them and counts them. -/
theorem operands_onto :
    (ReadsOnto (fun _ _ => const) (fun first : Half => [first]) {first | first.msb = false}
        {w | w.toInt ∈ Ico (-2 ^ 14) (2 ^ 14)} ∧
      ReadsOnto (fun _ _ => const) (fun p : Half × Half => [p.1, p.2]) {p | p.1.msb = true}
        {w | w.toInt ∈ Ico (-2 ^ 30) (2 ^ 30)}) ∧
    (∀ kind : BitVec 2,
      ReadsOnto (fun _ _ => displacement) (fun first : Half => [first])
        {first | first.msb = false ∧ first.extractLsb' 12 2 = kind}
        {d | d.subType = kind ∧ d.value.toInt ∈ Ico (-2 ^ 12) (2 ^ 12)} ∧
      ReadsOnto (fun _ _ => displacement) (fun p : Half × Half => [p.1, p.2])
        {p | p.1.msb = true ∧ p.1.extractLsb' 12 2 = kind}
        {d | d.subType = kind ∧ d.value.toInt ∈ Ico (-2 ^ 28) (2 ^ 28)}) ∧
    (∀ scale : BitVec 3,
      ReadsOnto (fun _ _ => indexLimit) (fun first : Half => [first])
        {first | first.msb = false ∧ first.extractLsb' 12 3 = scale}
        {l | l.subType = scale ∧ l.limit.toNat < 2 ^ 12} ∧
      ReadsOnto (fun _ _ => indexLimit) (fun p : Half × Half => [p.1, p.2])
        {p | p.1.msb = true ∧ p.1.extractLsb' 12 3 = scale}
        {l | l.subType = scale ∧ l.limit.toNat < 2 ^ 28}) ∧
    ∀ byte : Byte,
      ReadsOnto (fun word _ => offset word) (fun _ : Half => [])
        {word | word.extractLsb' 8 8 = byte ∧ word.getLsbD 7 = false}
        {w | w.toInt ∈ Ico (-2 ^ 7) (2 ^ 7) ∧ Even w.toInt} ∧
      ReadsOnto (fun p _ => offset p.1) (fun p : Half × Half => [p.2])
        {p | p.1.extractLsb' 8 8 = byte ∧ p.1.getLsbD 7 = true}
        {w | w.toInt ∈ Ico (-2 ^ 23) (2 ^ 23) ∧ Even w.toInt} := by
  -- Each range is the image of its bits: a halfword or two give the bits, and the bits give the number.
  refine ⟨⟨?_, ?_⟩, fun kind => ⟨?_, ?_⟩, fun scale => ⟨?_, ?_⟩, fun byte => ⟨?_, ?_⟩⟩
  · exact reads_onto_one shortConst longConst (fun _ short => short)
      ((signExtend_bijOn (by decide)).comp (constBits_bijOn false))
  · exact reads_onto_two shortConst longConst (fun _ long => long)
      ((signExtend_bijOn (by decide)).comp (append_bijOn (constBits_bijOn true)))
  · exact reads_onto_one _ _ (fun _ inside => inside.1)
      (tagged_bijOn (fun _ => rfl) (fun _ _ => rfl) (fun _ _ => rfl) (fun _ inside => inside.2)
        ((signExtend_bijOn (by decide)).comp (displacementBits_bijOn false kind)))
  · exact reads_onto_two _ _ (fun _ inside => inside.1)
      (tagged_bijOn (fun _ => rfl) (fun _ _ => rfl) (fun _ _ => rfl) (fun _ inside => inside.2)
        ((signExtend_bijOn (by decide)).comp (append_bijOn (displacementBits_bijOn true kind))))
  · exact reads_onto_one _ _ (fun _ inside => inside.1)
      (tagged_bijOn (fun _ => rfl) (fun _ _ => rfl) (fun _ _ => rfl) (fun _ inside => inside.2)
        ((setWidth_bijOn (by decide)).comp (limitBits_bijOn false scale)))
  · exact reads_onto_two _ _ (fun _ inside => inside.1)
      (tagged_bijOn (fun _ => rfl) (fun _ _ => rfl) (fun _ _ => rfl) (fun _ inside => inside.2)
        ((setWidth_bijOn (by decide)).comp (append_bijOn (limitBits_bijOn true scale))))
  · exact ⟨shortOffset, fun _ inside => reads_shortOffset inside.2,
      (signExtend_even_bijOn (by decide)).comp (offsetBits_bijOn byte)⟩
  · exact ⟨fun p => longOffset p.1 p.2, fun p inside => reads_longOffset inside.2 p.2,
      (signExtend_even_bijOn (by decide)).comp (longOffsetBits_bijOn byte)⟩

/-- A displacement of -4, for an access of kind 3. -/
example : ((displacement.run ⟨0x100, 1⟩).run (({} : FlatMemory).loadHalves 0x100 [0x7ffc])).1 =
    ((⟨3, -4⟩, ⟨0x102, 2⟩) : Displacement × Cursor) := by decide +kernel

end Decode

end E1Machine
