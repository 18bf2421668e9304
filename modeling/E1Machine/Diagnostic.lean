import E1Machine.Fault

/-!
# Diagnostics

What the processor reports to its host without stopping: operand combinations that the architecture
leaves undefined, reserved codes, and requests that it ignores. Each is a value; `Diagnostic.text` is
the one place that words them.
-/

namespace E1Machine

/-- A report to the host. -/
inductive Diagnostic where
  /-- The host drove an input line that does not exist. -/
  | inputLineOutOfRange (line : Nat)
  /-- A reserved selector was written to the memory control register. -/
  | reservedTrapEntry (selector : Nat)
  /-- `SET` into the program counter. -/
  | setIntoPc (word : Half)
  /-- `SET` with a reserved variant. -/
  | reservedSet (n : Nat)
  /-- A reserved instruction. -/
  | reservedOpcode (word : Half) (pc : Word)
  /-- `RET` from the status register. -/
  | returnFromSr (pc : Word)
  /-- A division by one of its own destination registers or a special register. -/
  | divideOperands (word : Half)
  /-- An index move from a special register. -/
  | indexMoveOperand (word : Half)
  /-- A product with a special register. -/
  | multiplyOperands (word : Half)
  /-- A transform step that this processor lacks. -/
  | unsupportedTransform (function : Half)
  /-- A signal-processing function with no meaning. -/
  | unknownExtension (function : Half)
  /-- A load with a reserved selector. -/
  | reservedLoad (word : Half)
  /-- A store with a reserved selector. -/
  | reservedStore (word : Half)
  /-- An advancing access through a special register. -/
  | postIncrement (word : Half)
  /-- A double shift counted by a register that it shifts. -/
  | doubleShiftCount (word : Half)
  /-- An instruction without meaning, which stops execution. -/
  | unimplementedOpcode (word : Half) (pc : Word)
  deriving DecidableEq, Repr

namespace Diagnostic

/-- An instruction word as a field of a report. -/
def opField (word : Half) : String := " op=" ++ paddedHex 4 word.toNat

/-- An address as a field of a report. -/
def pcField (pc : Word) : String := " pc=" ++ paddedHex 8 pc.toNat

/-- The wording: a message, then its fields. -/
def text : Diagnostic → String
  | inputLineOutOfRange line => "input line out of range line=" ++ toString line
  | reservedTrapEntry selector =>
    "reserved trap entry selector ignored selector=" ++ toString selector
  | setIntoPc word => "SET into PC is undefined" ++ opField word
  | reservedSet n => "reserved SET variant n=" ++ toString n
  | reservedOpcode word pc => "reserved opcode" ++ opField word ++ pcField pc
  | returnFromSr pc => "RET with SR source is undefined" ++ pcField pc
  | divideOperands word =>
    "divide with overlapping or special operands is undefined" ++ opField word
  | indexMoveOperand word => "index move from PC or SR is undefined" ++ opField word
  | multiplyOperands word => "multiply with PC or SR operand is undefined" ++ opField word
  | unsupportedTransform function =>
    "unsupported FFT step function=" ++ paddedHex 3 function.toNat
  | unknownExtension function =>
    "unknown EXTEND function function=" ++ paddedHex 4 function.toNat
  | reservedLoad word => "reserved load sub-type" ++ opField word
  | reservedStore word => "reserved store sub-type" ++ opField word
  | postIncrement word => "post-increment through PC or SR is undefined" ++ opField word
  | doubleShiftCount word =>
    "double shift counted by its own operand is undefined" ++ opField word
  | unimplementedOpcode word pc => "unimplemented opcode" ++ opField word ++ pcField pc

end Diagnostic

/-- The report of a fault. -/
def Fault.report : Fault → Diagnostic
  | unimplementedOpcode pc opcode => .unimplementedOpcode opcode pc

end E1Machine
