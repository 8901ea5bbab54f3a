/-
NewtonMethod/Arithmetic.lean

The arithmetic that a Newton iteration runs in, as one interface.

Every numerical definition of this library is written once, over a type `α`
with `Arithmetic α`, and says only which operations are performed and in which
order.  What the operations are is decided by the instance:

* `Float` and `Float32` are the two IEEE formats that programs compute in;
* an ordered field, or the real numbers, gives the exact reading of the same
  definitions, in which their algebra can be studied.

No law is part of the interface, because the IEEE formats have few: addition is
not associative and a value that is not a number differs from itself.  In
particular comparisons are plain tests, and `lt a b = false` does not give
`le b a = true`.
-/
namespace NewtonMethod

/-- The operations of a real arithmetic, exact or rounded. -/
class Arithmetic (α : Type) extends Add α, Sub α, Mul α, Div α, Neg α, Zero α, One α where
  /-- The value nearest to a natural number. -/
  ofNat : Nat → α
  /-- The result of an operation that has none. -/
  nan : α
  /-- Absolute value. -/
  abs : α → α
  /-- Square root. -/
  sqrt : α → α
  /-- Sine of an angle in radians. -/
  sin : α → α
  /-- Cosine of an angle in radians. -/
  cos : α → α
  /-- Natural exponential. -/
  exp : α → α
  /-- Natural logarithm. -/
  ln : α → α
  /-- Power with any exponent. -/
  pow : α → α → α
  /-- Neither infinite nor `nan`. -/
  isFinite : α → Bool
  /-- The sign bit is set; a negative zero counts. -/
  isNegative : α → Bool
  /-- Equality as the arithmetic has it; both zeros are equal, `nan` equals nothing. -/
  eq : α → α → Bool
  /-- Strictly less. -/
  lt : α → α → Bool
  /-- Less or equal. -/
  le : α → α → Bool

namespace Arithmetic

variable {α : Type} [Arithmetic α]

/-- The larger of two values, the first on a tie.  An undefined first argument is passed over,
an undefined second one is the result. -/
def larger (a b : α) : α := if le b a then a else b

/-- The two values are equal up to a test, entry by entry, and have the same number of entries. -/
def eqEntries (xs ys : List α) : Bool := List.isEqv xs ys eq

/-- Whether a value counts as zero. -/
def isZero (a : α) : Bool := eq a 0

end Arithmetic

/-- IEEE double precision, the elementary functions being those of the platform's mathematical
library. -/
instance : Arithmetic Float where
  ofNat := Float.ofNat
  nan := 0 / 0
  abs := Float.abs
  sqrt := Float.sqrt
  sin := Float.sin
  cos := Float.cos
  exp := Float.exp
  ln := Float.log
  pow := Float.pow
  isFinite := Float.isFinite
  isNegative x := decide (0x8000000000000000 ≤ x.toBits)
  eq a b := a == b
  lt a b := decide (a < b)
  le a b := decide (a ≤ b)

/-- IEEE single precision. -/
instance : Arithmetic Float32 where
  ofNat := Float32.ofNat
  nan := 0 / 0
  abs := Float32.abs
  sqrt := Float32.sqrt
  sin := Float32.sin
  cos := Float32.cos
  exp := Float32.exp
  ln := Float32.log
  pow := Float32.pow
  isFinite := Float32.isFinite
  isNegative x := decide (0x80000000 ≤ x.toBits)
  eq a b := a == b
  lt a b := decide (a < b)
  le a b := decide (a ≤ b)

end NewtonMethod
