/-
NewtonMethod/Decimal/Fixed.lean

Numbers with a fixed count of decimals.  The exact value is rounded to the last
decimal, a tie to the even neighbour; the sign is kept, also on zero.
-/
import NewtonMethod.Decimal.Layout

namespace NewtonMethod.Decimal

/-- The whole number nearest to `num / den`, the even one on a tie. -/
def roundDiv (num den : Nat) : Nat :=
  let quotient := num / den
  let twice := 2 * (num % den)
  if twice < den || (twice = den && quotient % 2 = 0) then quotient else quotient + 1

/-- The text of a number with `places` decimals, at least one. -/
def fixed (places : Nat) (x : Float) : String :=
  match Binary.ofFloat x with
  | .nan => "NaN"
  | .infinite negative => Layout.sign negative ++ "inf"
  | .finite negative m q =>
    let rounded := roundDiv (m * Binary.power q.toNat * power places) (Binary.power (-q).toNat)
    let fraction := toString (rounded % power places)
    Layout.sign negative ++ toString (rounded / power places) ++ "."
      ++ Layout.zeros (places - fraction.length) ++ fraction

end NewtonMethod.Decimal
