import E1Machine.Word

/-!
# Devices

The family consists of devices that share one instruction set and differ in the width of their buses,
the size of their on-chip RAM and the clock scales that their timer implements.
-/

namespace E1Machine

/-- Capacity of the on-chip RAM. -/
inductive IramSize where
  | kib4 | kib8 | kib16
  deriving DecidableEq, Repr

namespace IramSize

/-- The number of address bits that select a byte. -/
def addressBits : IramSize → Nat
  | kib4 => 12
  | kib8 => 13
  | kib16 => 14

/-- Capacity in bytes. -/
def bytes (size : IramSize) : Nat := 1 <<< size.addressBits

/-- The address bits that are ignored inside the window, so that the RAM repeats there. -/
def ignoredBits (size : IramSize) : Word := 0x1fffffff ^^^ BitVec.ofNat 32 (size.bytes - 1)

end IramSize

/-- Width of an external data bus. -/
inductive BusWidth where
  | bits16 | bits32
  deriving DecidableEq, Repr

/-- Width in bits. -/
def BusWidth.bits : BusWidth → Nat
  | .bits16 => 16
  | .bits32 => 32

/-- The devices of the family. -/
inductive Variant where
  | e116t | e116xt | e116xs | e116xsr
  | e132n | e132t | e132xn | e132xt | e132xs | e132xsr
  | gms30c2116 | gms30c2132 | gms30c2216 | gms30c2232
  deriving DecidableEq, Repr

/-- What a device fixes for the machine built on it. -/
structure Config where
  /-- The device. -/
  variant : Variant
  /-- Width of the program and data bus. -/
  programBus : BusWidth
  /-- Width of the I/O bus. -/
  ioBus : BusWidth
  /-- Size of the on-chip RAM. -/
  iramSize : IramSize
  /-- The bits of the clock-scale field that the timer implements. -/
  clockScaleMask : Word
  deriving DecidableEq, Repr

namespace Variant

/-- All devices. -/
def all : List Variant :=
  [e116t, e116xt, e116xs, e116xsr, e132n, e132t, e132xn, e132xt, e132xs, e132xsr, gms30c2116,
    gms30c2132, gms30c2216, gms30c2232]

/-- Width of both external buses. -/
def busWidth : Variant → BusWidth
  | e116t | e116xt | e116xs | e116xsr | gms30c2116 | gms30c2216 => .bits16
  | e132n | e132t | e132xn | e132xt | e132xs | e132xsr | gms30c2132 | gms30c2232 => .bits32

/-- Size of the on-chip RAM. -/
def iramSize : Variant → IramSize
  | e116t | e132n | e132t | gms30c2116 | gms30c2132 => .kib4
  | e116xt | e132xn | e132xt | gms30c2216 | gms30c2232 => .kib8
  | e116xs | e116xsr | e132xs | e132xsr => .kib16

/-- The implemented bits of the clock-scale field. -/
def clockScaleMask : Variant → Word
  | e116t | e132n | e132t | gms30c2116 | gms30c2132 | gms30c2216 | gms30c2232 => 0
  | e116xt | e132xn | e132xt => 3
  | e116xs | e116xsr | e132xs | e132xsr => 7

/-- The configuration of a device. -/
def config (v : Variant) : Config := ⟨v, v.busWidth, v.busWidth, v.iramSize, v.clockScaleMask⟩

end Variant

end E1Machine
