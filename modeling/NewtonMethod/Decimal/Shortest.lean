/-
NewtonMethod/Decimal/Shortest.lean

The fewest decimal digits that read back as the same number.

A double stands for all reals that round to it, an interval around its exact
value that contains its ends iff the significand is even.  Decimals with `n`
digits at that place form a grid, and if any point of the grid lies in the
interval, one of the two neighbours of the value does.  `shortest` tries the
grids for 1, 2, … 17 digits; the first that meets the interval wins, and of two
points on it the one nearer to the value, the upper one on a tie.
-/
import NewtonMethod.Decimal.Binary

namespace NewtonMethod

/-- The number `digits · 10 ^ exponent`. -/
structure Decimal where
  /-- All digits, as one number. -/
  digits : Nat
  /-- The power of ten of the last digit. -/
  exponent : Int
  deriving DecidableEq, Repr

namespace Decimal

/-- A power of ten. -/
def power (n : Nat) : Nat := Nat.pow 10 n

/-- Number of decimal digits. -/
def width (n : Nat) : Nat := (Nat.toDigits 10 n).length

/-- The power of ten of the leading digit of the positive number `num / den`. -/
def leadingExponent (num den : Nat) : Int :=
  if den ≤ num then (width (num / den) : Int) - 1 else -(width ((den - 1) / num) : Int)

/-- The same number with no zero at the end of its digits. -/
def normalize (d : Decimal) : Decimal :=
  if d.digits = 0 then ⟨0, 0⟩ else go (width d.digits) d
where
  go : Nat → Decimal → Decimal
    | 0, d => d
    | fuel + 1, d => if d.digits % 10 = 0 then go fuel ⟨d.digits / 10, d.exponent + 1⟩ else d

/-- The exact decimal value of `m · 2 ^ q`. -/
def exactly (m : Nat) (q : Int) : Decimal :=
  if 0 ≤ q then ⟨m * Binary.power q.toNat, 0⟩ else ⟨m * Nat.pow 5 (-q).toNat, q⟩

/-- The point of the grid of multiples of `10 ^ k` that stands for the double `m · 2 ^ q`, if there
is one.  Four times the significand is used, so that the ends of the interval are whole numbers:
two below and above, or one below where the doubles get denser. -/
def onGrid? (m : Nat) (q k : Int) : Option Nat :=
  let up := Binary.power (q - 2).toNat * power (-k).toNat
  let grid := Binary.power (2 - q).toNat * power k.toNat
  let value := 4 * m * up
  let low := (4 * m - if m = Binary.leadingBit ∧ q ≠ Binary.lowestExponent then 1 else 2) * up
  let high := (4 * m + 2) * up
  let inside (c : Nat) : Bool :=
    if m % 2 = 0 then low ≤ c * grid && c * grid ≤ high else low < c * grid && c * grid < high
  let below := value / grid
  match inside below, inside (below + 1) with
  | false, false => none
  | true, false => some below
  | false, true => some (below + 1)
  | true, true =>
    if value - below * grid < (below + 1) * grid - value then some below else some (below + 1)

/-- The shortest decimal that stands for the positive double `m · 2 ^ q`. -/
def shortest (m : Nat) (q : Int) : Decimal :=
  if m = 0 then ⟨0, 0⟩
  else
    let lead := leadingExponent (m * Binary.power q.toNat) (Binary.power (-q).toNat)
    let found := (List.range 17).findSome? fun (n : Nat) =>
      (onGrid? m q (lead - n)).map fun c => (⟨c, lead - n⟩ : Decimal)
    normalize (found.getD (exactly m q))

end Decimal

end NewtonMethod
