/-
NewtonMethod/Text/Hex.lean

Hexadecimal digits, and characters given by their numbers.
-/
namespace NewtonMethod.Text

/-- The value of a hexadecimal digit, the letters being taken in either case. -/
def hexDigit? (c : Char) : Option Nat :=
  if c.isDigit then some (c.toNat - '0'.toNat)
  else if 'a' ≤ c && c ≤ 'f' then some (c.toNat - 'a'.toNat + 10)
  else if 'A' ≤ c && c ≤ 'F' then some (c.toNat - 'A'.toNat + 10)
  else none

/-- The character with a number; surrogates and what lies beyond Unicode are none. -/
def charOfNumber? (n : Nat) : Option Char :=
  if n < 0xd800 || (0xdfff < n && n < 0x110000) then some (Char.ofNat n) else none

end NewtonMethod.Text
