/-
NewtonMethod/Decimal/Reader.lean

Numbers read from text.

A real number is an optional sign followed by digits with an optional point and
an optional exponent, where at least one digit stands before or after the
point, or by one of the words `inf`, `infinity` and `nan` in any case.  It is
read as the nearest double, whatever its number of digits.  A count is a
non-negative whole number below `2 ^ 64`, and may have a plus sign.
-/
import NewtonMethod.Decimal.Layout

namespace NewtonMethod

/-- The value of a row of decimal digits. -/
def digitsValue (ds : List Char) : Nat := ds.foldl (fun n c => 10 * n + (c.toNat - '0'.toNat)) 0

namespace Decimal

/-- The double nearest to `± digits · 10 ^ exponent`.  Magnitudes far outside the range of doubles
are decided by the number of digits alone. -/
def toFloat (negative : Bool) (d : Decimal) : Float :=
  let places := width d.digits + d.exponent
  let magnitude : Float :=
    if d.digits = 0 || places < -400 then 0
    else if 400 < places then 1 / 0
    else Float.ofScientific d.digits (d.exponent < 0) d.exponent.natAbs
  if negative then -magnitude else magnitude

/-- An exponent: an optional sign and at least one digit. -/
def readExponent? (cs : List Char) : Option Int :=
  let (negative, cs) := match cs with
    | '-' :: cs => (true, cs)
    | '+' :: cs => (false, cs)
    | cs => (false, cs)
  if cs.isEmpty || !cs.all Char.isDigit then none
  else some (if negative then -digitsValue cs else digitsValue cs)

/-- Digits with an optional point and an optional exponent. -/
def read? (cs : List Char) : Option Decimal :=
  let whole := cs.takeWhile Char.isDigit
  let rest := cs.dropWhile Char.isDigit
  let (fraction, rest) := match rest with
    | '.' :: rest => (rest.takeWhile Char.isDigit, rest.dropWhile Char.isDigit)
    | rest => ([], rest)
  if whole.isEmpty && fraction.isEmpty then none
  else
    let exponent? := match rest with
      | [] => some 0
      | c :: rest => if c = 'e' || c = 'E' then readExponent? rest else none
    exponent?.map fun exponent =>
      ⟨digitsValue (whole ++ fraction), exponent - fraction.length⟩

end Decimal

/-- The number that a text stands for. -/
def readFloat? (cs : List Char) : Option Float :=
  let (negative, body) := match cs with
    | '-' :: cs => (true, cs)
    | '+' :: cs => (false, cs)
    | cs => (false, cs)
  let word := String.ofList (body.map Char.toLower)
  if word = "nan" then some (0 / 0)
  else if word = "inf" || word = "infinity" then some (if negative then -(1 / 0) else 1 / 0)
  else (Decimal.read? body).map (Decimal.toFloat negative)

/-- All counts are below this number, `2 ^ 64`. -/
def countLimit : Nat := 0x10000000000000000

/-- The count that a text stands for. -/
def readCount? (cs : List Char) : Option Nat :=
  let digits := match cs with
    | '+' :: cs => cs
    | cs => cs
  if digits.isEmpty || !digits.all Char.isDigit then none
  else
    let n := digitsValue digits
    if n < countLimit then some n else none

end NewtonMethod
