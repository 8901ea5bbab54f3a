/-
NewtonMethod/DensePolynomial.lean

Polynomials in one variable, given by their coefficients in ascending order of
degree.

A polynomial is made by `ofCoefficients`, which drops trailing zeros; `degree`
and the equality test `beq` read the coefficients that are left, and rely on
it.  `derivative` makes its result the same way.  Evaluation is Horner's
scheme: from the highest coefficient down, multiply by `x` and add the next.
-/
import NewtonMethod.Arithmetic

namespace NewtonMethod

/-- A polynomial by its coefficients, the constant term first. -/
structure DensePolynomial (α : Type) where
  /-- Coefficients in ascending order of degree. -/
  coefficients : List α
  deriving DecidableEq, Repr

namespace DensePolynomial

variable {α : Type} [Arithmetic α]

/-- The list without the zeros at its end. -/
def dropTrailingZeros (cs : List α) : List α :=
  (cs.reverse.dropWhile Arithmetic.isZero).reverse

/-- The polynomial with the given coefficients. -/
def ofCoefficients (cs : List α) : DensePolynomial α := ⟨dropTrailingZeros cs⟩

/-- The exponent of the highest term; the zero polynomial has none. -/
def degree (p : DensePolynomial α) : Option Nat :=
  match p.coefficients with
  | [] => none
  | _ :: rest => some rest.length

/-- The value at `x`. -/
def evaluate (p : DensePolynomial α) (x : α) : α :=
  p.coefficients.foldr (fun c acc => acc * x + c) 0

/-- The coefficients of the derivative: those above the constant term, each times its power. -/
def derivativeCoefficients (cs : List α) : List α :=
  (cs.zipIdx.drop 1).map fun (c, power) => c * Arithmetic.ofNat power

/-- The derivative. -/
def derivative (p : DensePolynomial α) : DensePolynomial α :=
  ofCoefficients (derivativeCoefficients p.coefficients)

/-- Equality of the coefficients. -/
def beq (p q : DensePolynomial α) : Bool :=
  Arithmetic.eqEntries p.coefficients q.coefficients

/-- The polynomial takes one value only, as far as its degree tells. -/
def isConstant (p : DensePolynomial α) : Bool :=
  match p.degree with
  | none => true
  | some d => d == 0

end DensePolynomial

end NewtonMethod
