/-
NewtonMethod/Proofs/FormalPolynomial.lean

Polynomials as formal polynomials.

Over a field, a list of coefficients stands for a formal polynomial
(`ofList`):

    ofList [c₀, c₁, c₂, ...] = c₀ + X·(c₁ + X·(c₂ + ...))

Its coefficients are those of the list, followed by zeros.  So zeros at the end of
the list make no difference, and `evaluate` and `derivative` are evaluation and
derivative of the formal polynomial (`evaluate_eq`, `formal_derivative`), however
often the derivative is taken.
-/
import Mathlib.Algebra.Polynomial.Degree.Lemmas
import Mathlib.Algebra.Polynomial.Derivative
import Mathlib.Data.List.DropRight
import NewtonMethod.DensePolynomial
import NewtonMethod.Proofs.Exact

namespace NewtonMethod.DensePolynomial

open Polynomial (X C coeff eval)

variable {K : Type} [Field K]

/-- The formal polynomial with the given coefficients, the constant term first. -/
noncomputable def ofList : List K → Polynomial K
  | [] => 0
  | c :: cs => C c + X * ofList cs

/-- After the coefficients of the list there are zeros. -/
theorem coeff_ofList (cs : List K) (i : ℕ) : (ofList cs).coeff i = cs.getD i 0 := by
  induction cs generalizing i with
  | nil => rfl
  | cons c cs ih =>
    rw [ofList, Polynomial.coeff_add]
    -- the constant term is the head of the list, the others are those of `X * ofList cs`
    cases i with
    | zero => simp
    | succ i =>
      rw [Polynomial.coeff_C_succ, zero_add, Polynomial.coeff_X_mul, ih]
      rfl

/-- Horner's scheme evaluates the formal polynomial. -/
theorem eval_ofList (cs : List K) (x : K) :
    (ofList cs).eval x = cs.foldr (fun c acc => acc * x + c) 0 := by
  induction cs with
  | nil => exact Polynomial.eval_zero
  | cons c cs ih =>
    rw [ofList, Polynomial.eval_add, Polynomial.eval_C, Polynomial.eval_mul, Polynomial.eval_X, ih,
      List.foldr_cons]
    ring

theorem ofList_concat_zero (cs : List K) : ofList (cs ++ [0]) = ofList cs := by
  induction cs with
  | nil =>
    show C 0 + X * ofList [] = ofList []
    rw [ofList, Polynomial.C_0, mul_zero, add_zero]
  | cons c cs ih =>
    rw [List.cons_append, ofList, ih, ofList]

/-- The degree is less than the number of coefficients, if there are any. -/
theorem natDegree_ofList_le (cs : List K) : (ofList cs).natDegree ≤ cs.length - 1 := by
  apply Polynomial.natDegree_le_iff_coeff_eq_zero.mpr
  intro i hi
  -- beyond the list every coefficient is zero
  have hlength : cs.length ≤ i := by omega
  rw [coeff_ofList, List.getD_eq_getElem?_getD, List.getElem?_eq_none hlength, Option.getD_none]

/-- The formal polynomial of a polynomial. -/
noncomputable def formal (p : DensePolynomial K) : Polynomial K := ofList p.coefficients

theorem natDegree_formal_le (p : DensePolynomial K) : p.formal.natDegree ≤ p.degree.getD 0 := by
  obtain ⟨cs⟩ := p
  cases cs with
  | nil => exact natDegree_ofList_le []
  | cons c cs => exact natDegree_ofList_le (c :: cs)

variable [LinearOrder K] [ElementaryFunctions K]

/-- A polynomial is evaluated as its formal polynomial is. -/
theorem evaluate_eq (p : DensePolynomial K) (x : K) : p.evaluate x = p.formal.eval x :=
  (eval_ofList p.coefficients x).symm

/-! ### Zeros at the end -/

/-- The induction is from the end of the list. -/
theorem ofList_dropTrailingZeros (cs : List K) : ofList (dropTrailingZeros cs) = ofList cs := by
  induction cs using List.reverseRecOn with
  | nil => rfl
  | append_singleton cs c ih =>
    -- zeros are dropped at the end of the list by dropping them at the start of its reverse
    show ofList ((cs ++ [c]).rdropWhile Arithmetic.isZero) = _
    rw [List.rdropWhile_concat]
    split
    next hzero =>
      obtain rfl := Exact.isZero_iff.mp hzero
      rw [ofList_concat_zero]
      exact ih
    next => rfl

/-- What is dropped when a polynomial is made are zeros. -/
theorem formal_ofCoefficients (cs : List K) : (ofCoefficients cs).formal = ofList cs :=
  ofList_dropTrailingZeros cs

/-! ### Derivatives -/

/-- The rule for the derivative of a power, coefficient by coefficient. -/
theorem getD_derivativeCoefficients (cs : List K) (i : ℕ) :
    (derivativeCoefficients cs).getD i 0 = cs.getD (i + 1) 0 * (i + 1) := by
  have hget : (derivativeCoefficients cs)[i]?
      = cs[i + 1]?.map (· * Arithmetic.ofNat (i + 1)) := by
    rw [derivativeCoefficients, List.getElem?_map, List.getElem?_drop, List.getElem?_zipIdx,
      Option.map_map, Nat.zero_add, Nat.add_comm 1 i]
    rfl
  have hcast : (Arithmetic.ofNat (i + 1) : K) = i + 1 := Nat.cast_succ i
  rw [List.getD_eq_getElem?_getD, List.getD_eq_getElem?_getD, hget]
  -- beyond the list both sides are zero
  rcases cs[i + 1]? with - | c
  · exact (zero_mul _).symm
  · exact congrArg (c * ·) hcast

/-- The derivative is that of the formal polynomial. -/
theorem formal_derivative (p : DensePolynomial K) :
    p.derivative.formal = Polynomial.derivative p.formal := by
  rw [derivative, formal_ofCoefficients]
  ext i
  rw [coeff_ofList, getD_derivativeCoefficients, Polynomial.coeff_derivative, formal, coeff_ofList]

theorem formal_iterate_derivative (p : DensePolynomial K) (k : ℕ) :
    (derivative^[k] p).formal = Polynomial.derivative^[k] p.formal :=
  Function.Semiconj.iterate_right (f := formal) formal_derivative k p

end NewtonMethod.DensePolynomial
