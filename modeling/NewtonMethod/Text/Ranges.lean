/-
NewtonMethod/Text/Ranges.lean

Sets of characters, given by ranges of character numbers.

The numbers are those of Unicode, and a range is a pair of its first and its
last number.
-/
namespace NewtonMethod.Text

/-- Ranges of character numbers. -/
abbrev Ranges := List (Nat × Nat)

/-- A character is in one of the ranges. -/
def Ranges.holds (ranges : Ranges) (c : Char) : Bool :=
  ranges.any fun (low, high) => low ≤ c.toNat && c.toNat ≤ high

end NewtonMethod.Text
