/-
NewtonMethod/Proofs/PolynomialFunctions.lean

Polynomials are equal if they are the same function.

Two lists of coefficients give the same function if they differ in zeros at their
end, and the equality test compares lists.  It is a test for equal functions all
the same, since no polynomial can be made with a zero at its end (`IsMade`,
`IsMade.isZero_getLast`), in any arithmetic.  A list without one is determined by
its formal polynomial, which has its length as the degree and its entries as
coefficients (`eq_of_formal_eq`).  And over an infinite field a formal polynomial is
determined by its values, since only finitely many of them are zero unless all
are.

The same holds for one polynomial and its degree: a list is left with one
coefficient at most exactly if all the coefficients above the constant one count as
zero (`isConstant_ofCoefficients_iff`), and over an infinite field exactly if all
values are equal (`isConstant_iff_evaluate`).  The command for polynomials refuses
these lists and no other ones.  It reads doubles, which stand for rational numbers
if they are finite (`Double.toRational`).
-/
import Mathlib.Algebra.Polynomial.Roots
import NewtonMethod.CommandLine.Commands
import NewtonMethod.Proofs.Double
import NewtonMethod.Proofs.HigherDerivatives

namespace NewtonMethod

open Polynomial (C)

namespace DensePolynomial

/-! ### Polynomials that can be made -/

section Made

variable {α : Type} [Arithmetic α] {p : DensePolynomial α}

/-- The polynomial is made from coefficients, or it is a derivative of one that is made. -/
inductive IsMade : DensePolynomial α → Prop
  | ofCoefficients (cs : List α) : IsMade (ofCoefficients cs)
  | derivative {p : DensePolynomial α} (made : IsMade p) : IsMade p.derivative

theorem IsMade.exists_eq (h : p.IsMade) : ∃ cs, p = DensePolynomial.ofCoefficients cs := by
  cases h with
  | ofCoefficients cs => exact ⟨cs, rfl⟩
  | @derivative q _ => exact ⟨derivativeCoefficients q.coefficients, rfl⟩

/-- What is made has no zero at its end. -/
theorem IsMade.isZero_getLast (hp : p.IsMade) (h : p.coefficients ≠ []) :
    Arithmetic.isZero (p.coefficients.getLast h) = false := by
  obtain ⟨cs, rfl⟩ := hp.exists_eq
  exact Bool.eq_false_iff.mpr (isZero_getLast_ofCoefficients cs h)

omit [Arithmetic α] in
/-- The test looks at the number of coefficients that are left. -/
theorem isConstant_iff_length : p.isConstant = true ↔ p.coefficients.length ≤ 1 := by
  obtain ⟨cs⟩ := p
  rcases cs with - | ⟨c, - | ⟨c', cs⟩⟩ <;> simp [isConstant, degree]

/-- A list is left with one coefficient at most if those above the constant one are zeros. -/
theorem isConstant_ofCoefficients_iff {cs : List α} :
    (ofCoefficients cs).isConstant = true ↔ ∀ a ∈ cs.drop 1, Arithmetic.isZero a = true := by
  rw [isConstant_iff_length]
  cases cs with
  | nil => exact iff_of_true (Nat.zero_le 1) fun _ ha => absurd ha List.not_mem_nil
  | cons c cs =>
    -- zeros at the end are dropped from the reverse, where the constant coefficient is the last
    show ((c :: cs).reverse.dropWhile Arithmetic.isZero).reverse.length ≤ 1 ↔ _
    rw [List.length_reverse, List.reverse_cons, List.dropWhile_append]
    split
    next hall =>
      rw [List.isEmpty_iff, List.dropWhile_eq_nil_iff] at hall
      exact iff_of_true (List.dropWhile_sublist _).length_le
        fun a ha => hall a (List.mem_reverse.mpr ha)
    next hsome =>
      rw [List.isEmpty_iff] at hsome
      have hpos := List.length_pos_of_ne_nil hsome
      -- one of the others is left, and the constant coefficient with it
      refine iff_of_false (fun hlength => ?_) fun hall => ?_
      · rw [List.length_append, List.length_singleton] at hlength
        omega
      · rw [List.dropWhile_eq_nil_iff] at hsome
        exact hsome fun a ha => hall a (List.mem_reverse.mp ha)

end Made

/-! ### The formal polynomial determines the list -/

section Formal

variable {K : Type} [Field K] {p q : DensePolynomial K}

theorem length_coefficients {α : Type} (p : DensePolynomial α) :
    p.coefficients.length = p.degree.elim 0 (· + 1) := by
  obtain ⟨cs⟩ := p
  cases cs with
  | nil => rfl
  | cons c cs => rfl

/-- Without a zero at its end a list is determined by the formal polynomial. -/
theorem eq_of_formal_eq (hp : p.IsTrimmed) (hq : q.IsTrimmed) (h : p.formal = q.formal) :
    p.coefficients = q.coefficients := by
  have hdegree : p.degree = q.degree := by
    ext d
    rw [degree_eq_some_iff hp, degree_eq_some_iff hq, h]
  have hlength : p.coefficients.length = q.coefficients.length := by
    rw [length_coefficients, length_coefficients, hdegree]
  -- lists of one length, with the coefficients of the formal polynomial as entries
  refine List.ext_getElem hlength fun i hi hi' => ?_
  have hcoeff := congrArg (Polynomial.coeff · i) h
  simp only [formal, coeff_ofList, List.getD_eq_getElem _ _ hi, List.getD_eq_getElem _ _ hi']
    at hcoeff
  exact hcoeff

theorem isConstant_iff_degree_le (hp : p.IsTrimmed) :
    p.isConstant = true ↔ p.formal.degree ≤ 0 := by
  rcases hdegree : p.degree with - | d
  · rw [isConstant, hdegree, (degree_eq_none_iff hp).mp hdegree, Polynomial.degree_zero]
    exact iff_of_true rfl bot_le
  · rw [isConstant, hdegree, (degree_eq_some_iff hp).mp hdegree, Nat.cast_nonpos]
    exact beq_iff_eq

end Formal

section Exact

variable {K : Type} [Field K] [LinearOrder K] [ElementaryFunctions K] {p q : DensePolynomial K}

theorem IsMade.isTrimmed (h : p.IsMade) : p.IsTrimmed := by
  obtain ⟨cs, rfl⟩ := h.exists_eq
  exact isTrimmed_ofCoefficients cs

/-- In exact arithmetic the test for equal entries is equality. -/
theorem eqEntries_iff {xs ys : List K} : Arithmetic.eqEntries xs ys = true ↔ xs = ys := by
  induction xs generalizing ys with
  | nil => cases ys <;> simp [Arithmetic.eqEntries]
  | cons x xs ih =>
    cases ys with
    | nil => simp [Arithmetic.eqEntries]
    | cons y ys =>
      rw [List.cons_eq_cons, ← ih, ← decide_eq_true_iff (p := x = y), ← Bool.and_eq_true]
      rfl

variable [Infinite K]

theorem formal_eq_iff_evaluate : p.formal = q.formal ↔ ∀ x, p.evaluate x = q.evaluate x := by
  simp only [evaluate_eq]
  exact ⟨fun h x => congrArg _ h, Polynomial.funext⟩

theorem beq_iff_evaluate (hp : p.IsTrimmed) (hq : q.IsTrimmed) :
    p.beq q = true ↔ ∀ x, p.evaluate x = q.evaluate x := by
  rw [beq, eqEntries_iff, ← formal_eq_iff_evaluate]
  exact ⟨congrArg ofList, eq_of_formal_eq hp hq⟩

/-- A trimmed polynomial is constant exactly if all its values are equal. -/
theorem isConstant_iff_evaluate (hp : p.IsTrimmed) :
    p.isConstant = true ↔ ∃ v, ∀ x, p.evaluate x = v := by
  rw [isConstant_iff_degree_le hp]
  constructor
  · intro h
    rw [Polynomial.degree_le_zero_iff] at h
    refine ⟨p.formal.coeff 0, fun x => ?_⟩
    rw [evaluate_eq, h, Polynomial.eval_C, Polynomial.coeff_C_zero]
  · rintro ⟨v, hv⟩
    -- the constant polynomial has the same values, of which there are infinitely many
    have hformal : p.formal = C v := Polynomial.funext fun x => by
      rw [← evaluate_eq, hv, Polynomial.eval_C]
    rw [hformal]
    exact Polynomial.degree_C_le

end Exact

end DensePolynomial

/-! ### The command -/

/-- The number that a finite double stands for. -/
def Double.toRational (a : Float) : ℚ :=
  match parts a with
  | .finite s m e _ => s.apply m * 2 ^ e
  | _ => 0

/-- The finite doubles that stand for zero are the two zeros. -/
theorem Double.toRational_eq_zero_iff {a : Float} (h : Arithmetic.isFinite a = true) :
    toRational a = 0 ↔ Arithmetic.isZero a = true := by
  rw [isFinite_eq] at h
  rw [isZero_iff, toRational]
  generalize parts a = u at h ⊢
  rcases u with s | - | s | ⟨s, m, e, hm⟩
  · cases h
  · cases h
  · exact iff_of_true rfl ⟨s, rfl⟩
  · have hsigned : s.apply m ≠ 0 := by
      cases s with
      | negative => exact neg_ne_zero.mpr (Nat.cast_ne_zero.mpr hm.ne')
      | positive => exact Nat.cast_ne_zero.mpr hm.ne'
    refine iff_of_false ?_ (by rintro ⟨_, ⟨⟩⟩)
    exact mul_ne_zero (Int.cast_ne_zero.mpr hsigned) (zpow_ne_zero e two_ne_zero)

/-- No search fails with this error, so it comes from the test of the coefficients. -/
theorem Command.runPolynomial_eq_constant_iff {cs : List Float} {start : Float} {analytic : Bool}
    {c : Config Float} :
    (runPolynomial cs start analytic c).failure = some (.argument .constantPolynomial)
      ↔ (DensePolynomial.ofCoefficients cs).isConstant = true := by
  rw [runPolynomial]
  rcases (DensePolynomial.ofCoefficients cs).isConstant with - | -
  · exact iff_of_false (failure_searched_ne_argument _) Bool.false_ne_true
  · exact iff_of_true rfl rfl

namespace DensePolynomial

open Command (runPolynomial runPolynomial_eq_constant_iff)

/-- The coefficients that are refused, read as rational numbers. -/
theorem isConstant_iff_toRational {cs : List Float} (h : ∀ a ∈ cs, Arithmetic.isFinite a = true) :
    (ofCoefficients cs).isConstant = true
      ↔ ∃ v, ∀ x, (ofCoefficients (cs.map Double.toRational)).evaluate x = v := by
  rw [← isConstant_iff_evaluate (isTrimmed_ofCoefficients _), isConstant_ofCoefficients_iff,
    isConstant_ofCoefficients_iff, ← List.map_drop, List.forall_mem_map]
  refine forall₂_congr fun a ha => ?_
  rw [Exact.isZero_iff, Double.toRational_eq_zero_iff (h a (List.mem_of_mem_drop ha))]

/-- **Polynomials are equal if they are the same function.**  In any arithmetic, a polynomial that
can be made has no zero at its end.  In exact arithmetic over an infinite field two of them are
equal exactly if they have equal values everywhere, and one of them has a degree of one at least
exactly if it is no constant function.  The command for polynomials refuses the lists without such a
degree, which are, if the doubles are finite, those of a constant function. -/
theorem beq_iff_sameFunction (K : Type) [Field K] [LinearOrder K] [ElementaryFunctions K]
    [Infinite K] :
    (∀ (α : Type) [Arithmetic α] (p : DensePolynomial α), p.IsMade →
        ∀ h : p.coefficients ≠ [], Arithmetic.isZero (p.coefficients.getLast h) = false)
      ∧ (∀ p q : DensePolynomial K, p.IsMade → q.IsMade →
        (p.beq q = true ↔ p.coefficients = q.coefficients)
          ∧ (p.beq q = true ↔ ∀ x, p.evaluate x = q.evaluate x))
      ∧ (∀ p : DensePolynomial K, p.IsMade →
        (p.isConstant = true ↔ ∃ v, ∀ x, p.evaluate x = v))
      ∧ ∀ (cs : List Float) (start : Float) (analytic : Bool) (c : Config Float),
        ((runPolynomial cs start analytic c).failure = some (.argument .constantPolynomial)
          ↔ (ofCoefficients cs).isConstant = true)
        ∧ ((∀ a ∈ cs, Arithmetic.isFinite a = true) →
          ((runPolynomial cs start analytic c).failure = some (.argument .constantPolynomial)
            ↔ ∃ v, ∀ x, (ofCoefficients (cs.map Double.toRational)).evaluate x = v)) := by
  refine ⟨fun _ _ _ hp => hp.isZero_getLast, fun p q hp hq => ⟨eqEntries_iff, ?_⟩,
    fun p hp => isConstant_iff_evaluate hp.isTrimmed,
    fun cs start analytic c => ⟨runPolynomial_eq_constant_iff, fun hcs => ?_⟩⟩
  · exact beq_iff_evaluate hp.isTrimmed hq.isTrimmed
  · rw [runPolynomial_eq_constant_iff, isConstant_iff_toRational hcs]

/-- The derivative of `5 - 2x + x³` is `-2 + 3x²`, and `5` is a constant, each of them written with
a zero too many. -/
theorem beq_iff_sameFunction_cubic :
    let p : DensePolynomial ℚ := derivative (ofCoefficients [5, -2, 0, 1, 0])
    let q : DensePolynomial ℚ := ofCoefficients [-2, 0, 3, 0]
    p.beq q = true ∧ (∀ x, p.evaluate x = q.evaluate x)
      ∧ (∃ v, ∀ x, (ofCoefficients [(5 : ℚ), 0]).evaluate x = v)
      ∧ ∀ c, (runPolynomial [5, 0] 1 false c).failure = some (.argument .constantPolynomial) := by
  intro p q
  obtain ⟨-, heq, hconstant, hrefused⟩ := beq_iff_sameFunction ℚ
  have hbeq : p.beq q = true := by decide +kernel
  refine ⟨hbeq, ?_, ?_, fun c => ?_⟩
  · exact (heq p q (.derivative (.ofCoefficients _)) (.ofCoefficients _)).2.mp hbeq
  · exact (hconstant _ (.ofCoefficients _)).mp (by decide +kernel)
  · exact (hrefused _ _ _ _).1.mpr (by decide +kernel)

end DensePolynomial

end NewtonMethod
