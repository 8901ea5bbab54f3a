/-
NewtonMethod/Decimal/Layout.lean

How the digits of a number are laid out as text.

The digits are always the shortest that read back as the same number.  A
`Layout` says which numbers are written positionally and which with an
exponent, and whether a whole number shows a decimal:

    plain        100       0.00001    10000000000000000
    literal      100.0     1e-5       1e16
    scientific   1e2       1e-5       1e16
-/
import NewtonMethod.Decimal.Shortest

namespace NewtonMethod

/-- A way to lay out digits. -/
structure Layout where
  /-- Whether a number is written positionally, by the power of ten of its leading digit. -/
  positional : Int → Bool
  /-- A whole number that is written positionally ends in `.0`. -/
  showsDecimal : Bool

namespace Layout

/-- Never an exponent, and no more than the digits. -/
def plain : Layout := ⟨fun _ => true, false⟩

/-- As in source code: at least one decimal, and an exponent for magnitudes below `1e-4` and from
`1e16` on. -/
def literal : Layout := ⟨fun e => -4 ≤ e && e < 16, true⟩

/-- Always an exponent. -/
def scientific : Layout := ⟨fun _ => false, false⟩

/-- A run of zeros. -/
def zeros (n : Nat) : String := "".pushn '0' n

/-- The text of a decimal without its sign. -/
def digits (l : Layout) (d : Decimal) : String :=
  let text := Nat.toDigits 10 d.digits
  let lead := text.length + d.exponent - 1
  if l.positional lead then
    if 0 ≤ d.exponent then
      String.ofList text ++ zeros d.exponent.toNat ++ (if l.showsDecimal then ".0" else "")
    else if 0 ≤ lead then
      let whole := (lead + 1).toNat
      String.ofList (text.take whole) ++ "." ++ String.ofList (text.drop whole)
    else "0." ++ zeros (-lead - 1).toNat ++ String.ofList text
  else
    match text with
    | [] => ""
    | [c] => c.toString ++ "e" ++ toString lead
    | c :: rest => c.toString ++ "." ++ String.ofList rest ++ "e" ++ toString lead

/-- A minus sign, or nothing. -/
def sign (negative : Bool) : String := if negative then "-" else ""

/-- The text of a number. -/
def text (l : Layout) (x : Float) : String :=
  match Binary.ofFloat x with
  | .nan => "NaN"
  | .infinite negative => sign negative ++ "inf"
  | .finite negative m q => sign negative ++ l.digits (Decimal.shortest m q)

/-- The text of a list of numbers. -/
def list (l : Layout) (xs : List Float) : String :=
  "[" ++ ", ".intercalate (xs.map l.text) ++ "]"

end Layout

end NewtonMethod
