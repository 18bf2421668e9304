/-!
# Hexadecimal text

Numbers as they appear in reports: lower-case hexadecimal digits after `0x`, padded with zeros to a
least number of digits.
-/

namespace E1Machine

/-- `n` in upper-case hexadecimal, without leading zeros. -/
def upperHex (n : Nat) : String :=
  (String.ofList (Nat.toDigits 16 n)).toUpper

/-- `n` as `0x` and at least `digits` lower-case hexadecimal digits. -/
def paddedHex (digits n : Nat) : String :=
  let text := Nat.toDigits 16 n
  "0x" ++ String.ofList (List.replicate (digits - text.length) '0' ++ text)

end E1Machine
