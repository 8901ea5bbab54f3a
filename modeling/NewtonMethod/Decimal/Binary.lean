/-
NewtonMethod/Decimal/Binary.lean

A double precision number taken apart: undefined, infinite, or the exact value
`± significand · 2 ^ exponent`.  The texts of numbers are computed from these
parts in exact integer arithmetic.
-/
namespace NewtonMethod

/-- The parts of a double precision number. -/
inductive Binary where
  /-- Not a number. -/
  | nan
  /-- Infinite. -/
  | infinite (negative : Bool)
  /-- The value `± significand · 2 ^ exponent`; zero keeps its sign. -/
  | finite (negative : Bool) (significand : Nat) (exponent : Int)
  deriving DecidableEq, Repr

namespace Binary

/-- The smallest exponent, that of the numbers without a leading bit. -/
def lowestExponent : Int := -1074

/-- The leading bit of a significand, `2 ^ 52`; the fraction lies below it. -/
def leadingBit : Nat := 0x10000000000000

/-- The bit of the sign, `2 ^ 63`. -/
def signBit : Nat := 0x8000000000000000

/-- A power of two. -/
def power (n : Nat) : Nat := Nat.pow 2 n

/-- The parts of a number, read off its 64 bits: sign, 11 bits of exponent, 52 bits of fraction. -/
def ofFloat (x : Float) : Binary :=
  let bits := x.toBits.toNat
  let negative := decide (signBit ≤ bits)
  let biased : Nat := bits / leadingBit % 0x800
  let fraction : Nat := bits % leadingBit
  if biased = 0x7ff then
    if fraction = 0 then infinite negative else nan
  else if biased = 0 then finite negative fraction lowestExponent
  else finite negative (leadingBit + fraction) (lowestExponent + biased - 1)

end Binary

end NewtonMethod
