/-
NewtonMethod/Proofs/Exact.lean

Exact arithmetic: the reading of the numerical definitions in which no rounding
takes place.

Every ordered field `K` gives an `Arithmetic K` whose four operations,
magnitude and comparisons are those of the field and in which every value is
finite (`exactArithmetic`).  What a field does not fix, the roots, the
elementary functions and a value for what is undefined, may be anything; it is
given by `ElementaryFunctions K`, and a statement for all of these holds
whatever they are.

The lemmas turn the tests of the interface into the relations of the field, and
with them the check of a configuration into four inequalities.
The operations need no lemma, since those of the interface are by definition
those of the field.
-/
import Mathlib.Algebra.Field.Rat
import Mathlib.Algebra.Order.Ring.Rat
import Mathlib.Data.Rat.Sqrt
import NewtonMethod.Config

namespace NewtonMethod

/-- The functions of an arithmetic that the operations of an ordered field do not determine. -/
class ElementaryFunctions (K : Type) where
  /-- What stands for a result that is undefined. -/
  undefined : K
  /-- Square root. -/
  sqrt : K → K
  /-- Sine. -/
  sin : K → K
  /-- Cosine. -/
  cos : K → K
  /-- Exponential. -/
  exp : K → K
  /-- Natural logarithm. -/
  ln : K → K
  /-- Power. -/
  pow : K → K → K

/-- An ordered field as an arithmetic without rounding, in which every value is finite. -/
instance exactArithmetic (K : Type) [Field K] [LinearOrder K] [ElementaryFunctions K] :
    Arithmetic K where
  ofNat n := n
  nan := ElementaryFunctions.undefined
  abs a := |a|
  sqrt := ElementaryFunctions.sqrt
  sin := ElementaryFunctions.sin
  cos := ElementaryFunctions.cos
  exp := ElementaryFunctions.exp
  ln := ElementaryFunctions.ln
  pow := ElementaryFunctions.pow
  isFinite _ := true
  isNegative a := decide (a < 0)
  eq a b := decide (a = b)
  lt a b := decide (a < b)
  le a b := decide (a ≤ b)

/-- The rational numbers, for examples that can be computed.  Their square root is that of
numerator and denominator; the other functions have no rational values and are left at zero. -/
instance rationalFunctions : ElementaryFunctions ℚ where
  undefined := 0
  sqrt := Rat.sqrt
  sin _ := 0
  cos _ := 0
  exp _ := 0
  ln _ := 0
  pow _ _ := 0

namespace Exact

variable {K : Type} [Field K] [LinearOrder K] [ElementaryFunctions K]

@[simp] theorem abs_eq (a : K) : Arithmetic.abs a = |a| := rfl

@[simp] theorem isFinite_eq (a : K) : Arithmetic.isFinite a = true := rfl

@[simp] theorem lt_iff {a b : K} : Arithmetic.lt a b = true ↔ a < b := decide_eq_true_iff

@[simp] theorem le_iff {a b : K} : Arithmetic.le a b = true ↔ a ≤ b := decide_eq_true_iff

@[simp] theorem isZero_iff {a : K} : Arithmetic.isZero a = true ↔ a = 0 := decide_eq_true_iff

/-! ### Acceptable settings -/

/-- In an ordered field there is nothing else to a positive setting. -/
theorem isPositive_iff {a : K} : Config.isPositive a = true ↔ 0 < a := by
  simp [Config.isPositive]

/-- The same for a setting that may be zero. -/
theorem isNonnegative_iff {a : K} : Config.isNonnegative a = true ↔ 0 ≤ a := by
  simp [Config.isNonnegative]

/-- The check of a configuration as inequalities.  A radius counts only if there is one. -/
theorem validate_eq_ok_iff {c : Config K} :
    c.validate = .ok () ↔ 0 < c.tolerance ∧ 0 < c.stepScale
      ∧ (∀ r, c.maxRadius = some r → 0 < r) ∧ 0 ≤ c.singularityTolerance := by
  -- a radius that is not positive is what the check looks for
  have hfilter : c.maxRadius.filter (!Config.isPositive ·) = none
      ↔ ∀ r, c.maxRadius = some r → 0 < r := by
    rw [Option.filter_eq_none_iff]
    simp only [Bool.not_eq_true', Bool.not_eq_false, isPositive_iff]
  rw [← isPositive_iff, ← isPositive_iff, ← hfilter, ← isNonnegative_iff, Config.validate]
  -- the settings in the order in which they are checked
  rcases Config.isPositive c.tolerance with - | -
  · simp
  rcases Config.isPositive c.stepScale with - | -
  · simp
  rcases c.maxRadius.filter (!Config.isPositive ·) with - | r
  · rcases Config.isNonnegative c.singularityTolerance with - | - <;> simp
  · simp

end Exact

end NewtonMethod
