/-
NewtonMethod/Proofs/HigherDerivatives.lean

Values and degrees of a polynomial and of all its derivatives.

A polynomial that is made by `ofCoefficients` has no zero at the end of its list
(`IsTrimmed`), and neither has a derivative, since it is made the same way.  Of such a
polynomial the length of the list tells the degree: `degree` is that of the formal
polynomial, and there is none exactly if that is zero (`degree_eq_some_iff`,
`degree_eq_none_iff`).

So what is to be known of `k` derivatives is known of the formal polynomial.  There the
`i`-th coefficient comes from the `i + k`-th one, times the `k` powers that came down:

    (Σ cᵢ·xⁱ)⁽ᵏ⁾ = Σ i·(i-1)·...·(i-k+1)·cᵢ·xⁱ⁻ᵏ    over i ≥ k

In characteristic zero that product of powers is not zero.  The highest coefficient
therefore stays the highest one as long as there is one, and the degree drops by `k`.
-/
import Mathlib.Algebra.BigOperators.Intervals
import Mathlib.Algebra.Polynomial.Eval.Degree
import Mathlib.Data.List.GetD
import NewtonMethod.Proofs.FormalPolynomial

namespace NewtonMethod.DensePolynomial

open Finset

variable {K : Type} [Field K]

/-! ### Lists without zeros at the end -/

/-- The last coefficient, if there is one, is not zero. -/
def IsTrimmed (p : DensePolynomial K) : Prop :=
  ∀ h : p.coefficients ≠ [], p.coefficients.getLast h ≠ 0

/-- A list of coefficients has the degree of its last one, if that is not zero. -/
theorem degree_ofList {cs : List K} (h : cs ≠ []) (hlast : cs.getLast h ≠ 0) :
    (ofList cs).degree = ↑(cs.length - 1) := by
  apply Polynomial.degree_eq_of_le_of_coeff_ne_zero
  · exact Polynomial.degree_le_of_natDegree_le (natDegree_ofList_le cs)
  · rw [coeff_ofList, List.getD_eq_getElem _ _ (Nat.sub_one_lt (List.length_pos_of_ne_nil h).ne'),
      ← List.getLast_eq_getElem h]
    exact hlast

section Degree

variable {p : DensePolynomial K} (hp : p.IsTrimmed)

include hp

theorem degree_eq_none_iff : p.degree = none ↔ p.formal = 0 := by
  obtain ⟨cs⟩ := p
  rcases cs with - | ⟨c, cs⟩
  · exact iff_of_true rfl rfl
  · -- a list that is not empty ends with a coefficient other than zero
    refine iff_of_false (Option.some_ne_none _) fun hzero => ?_
    have hdegree := degree_ofList (List.cons_ne_nil c cs) (hp (List.cons_ne_nil c cs))
    rw [show ofList (c :: cs) = 0 from hzero, Polynomial.degree_zero] at hdegree
    cases hdegree

/-- The degree of a trimmed list is that of the polynomial it denotes. -/
theorem degree_eq_some_iff {d : ℕ} : p.degree = some d ↔ p.formal.degree = d := by
  obtain ⟨cs⟩ := p
  rcases cs with - | ⟨c, cs⟩
  · refine iff_of_false (Option.some_ne_none _).symm fun hdegree => ?_
    rw [formal, ofList, Polynomial.degree_zero] at hdegree
    cases hdegree
  · have hdegree := degree_ofList (List.cons_ne_nil c cs) (hp (List.cons_ne_nil c cs))
    rw [formal, hdegree, Nat.cast_inj]
    exact Option.some_inj

end Degree

/-! ### Polynomials that are made -/

variable [LinearOrder K] [ElementaryFunctions K]

/-- In any arithmetic. -/
theorem isZero_getLast_ofCoefficients {α : Type} [Arithmetic α] (cs : List α)
    (h : (ofCoefficients cs).coefficients ≠ []) :
    ¬Arithmetic.isZero ((ofCoefficients cs).coefficients.getLast h) = true :=
  List.rdropWhile_last_not Arithmetic.isZero cs h

/-- A polynomial that is made has no zero at the end of its list. -/
theorem isTrimmed_ofCoefficients (cs : List K) : (ofCoefficients cs).IsTrimmed :=
  fun h => mt Exact.isZero_iff.mpr (isZero_getLast_ofCoefficients cs h)

theorem isTrimmed_iterate_derivative {p : DensePolynomial K} (hp : p.IsTrimmed) (k : ℕ) :
    (derivative^[k] p).IsTrimmed := by
  cases k with
  | zero => exact hp
  | succ k =>
    rw [Function.iterate_succ_apply']
    exact isTrimmed_ofCoefficients _

/-- The degree of a list of coefficients is the place of the last one that is not zero. -/
theorem degree_ofCoefficients_eq_some_iff {cs : List K} {d : ℕ} :
    (ofCoefficients cs).degree = some d ↔ cs.getD d 0 ≠ 0 ∧ ∀ i, d < i → cs.getD i 0 = 0 := by
  rw [degree_eq_some_iff (isTrimmed_ofCoefficients cs), formal_ofCoefficients]
  simp only [← coeff_ofList]
  constructor
  · intro hdegree
    refine ⟨Polynomial.coeff_ne_zero_of_eq_degree hdegree, fun i hi => ?_⟩
    apply Polynomial.coeff_eq_zero_of_degree_lt
    rw [hdegree]
    exact Nat.cast_lt.mpr hi
  · rintro ⟨hne, hzero⟩
    refine Polynomial.degree_eq_of_le_of_coeff_ne_zero ?_ hne
    rw [Polynomial.degree_le_iff_coeff_zero]
    exact fun i hi => hzero i (Nat.cast_lt.mp hi)

/-! ### Derivatives of any order -/

variable (cs : List K) (k : ℕ)

theorem formal_iterate_derivative_ofCoefficients :
    (derivative^[k] (ofCoefficients cs)).formal = Polynomial.derivative^[k] (ofList cs) := by
  rw [formal_iterate_derivative, formal_ofCoefficients]

/-- Each coefficient comes from `k` places above, times the powers that came down. -/
theorem coeff_iterate_derivative (i : ℕ) :
    (derivative^[k] (ofCoefficients cs)).formal.coeff i
      = (i + k).descFactorial k * cs.getD (i + k) 0 := by
  rw [formal_iterate_derivative_ofCoefficients, Polynomial.coeff_iterate_derivative, coeff_ofList,
    nsmul_eq_mul]

/-- The value of the `k`-th derivative, as a sum over the given coefficients. -/
theorem evaluate_iterate_derivative_eq_sum (x : K) :
    (derivative^[k] (ofCoefficients cs)).evaluate x
      = ∑ i ∈ Ico k cs.length, i.descFactorial k * cs.getD i 0 * x ^ (i - k) := by
  -- the sum may be extended over all places from which a coefficient can come
  have hdegree : (derivative^[k] (ofCoefficients cs)).formal.natDegree < cs.length - k + 1 := by
    apply Nat.lt_succ_of_le
    apply Polynomial.natDegree_le_iff_coeff_eq_zero.mpr
    intro i hi
    have hlength : cs.length ≤ i + k := by omega
    rw [coeff_iterate_derivative, List.getD_eq_default _ _ hlength, mul_zero]
  -- it has one place more than the list, and the coefficient there is zero
  have hrest : (derivative^[k] (ofCoefficients cs)).formal.coeff (cs.length - k) = 0 := by
    rw [coeff_iterate_derivative, List.getD_eq_default _ _ (by omega), mul_zero]
  rw [evaluate_eq, Polynomial.eval_eq_sum_range' hdegree, sum_Ico_eq_sum_range, sum_range_succ,
    hrest, zero_mul, add_zero]
  apply sum_congr rfl
  intro i _
  rw [coeff_iterate_derivative, Nat.add_comm k i, Nat.add_sub_cancel]

section Degree

variable {cs k} [CharZero K] {d : ℕ} (hd : (ofCoefficients cs).degree = some d)

include hd

/-- The degree drops by `k` while it can. -/
theorem degree_iterate_derivative (hk : k ≤ d) :
    (derivative^[k] (ofCoefficients cs)).degree = some (d - k) := by
  obtain ⟨hne, hzero⟩ := degree_ofCoefficients_eq_some_iff.mp hd
  have htrimmed := isTrimmed_iterate_derivative (isTrimmed_ofCoefficients cs) k
  rw [degree_eq_some_iff htrimmed]
  apply Polynomial.degree_eq_of_le_of_coeff_ne_zero
  · rw [Polynomial.degree_le_iff_coeff_zero]
    intro i hi
    have hdi : d < i + k := by
      have := Nat.cast_lt.mp hi
      omega
    rw [coeff_iterate_derivative, hzero _ hdi, mul_zero]
  · rw [coeff_iterate_derivative, Nat.sub_add_cancel hk]
    -- in characteristic zero the product of the powers that came down is not zero
    have hpowers : d.descFactorial k ≠ 0 :=
      Nat.descFactorial_eq_zero_iff_lt.not.mpr (Nat.not_lt.mpr hk)
    exact mul_ne_zero (Nat.cast_ne_zero.mpr hpowers) hne

end Degree

theorem degree_iterate_derivative_eq_none
    (hd : ∀ d, (ofCoefficients cs).degree = some d → d < k) :
    (derivative^[k] (ofCoefficients cs)).degree = none := by
  have htrimmed := isTrimmed_iterate_derivative (isTrimmed_ofCoefficients cs) k
  rw [degree_eq_none_iff htrimmed]
  ext i
  rw [Polynomial.coeff_zero, coeff_iterate_derivative]
  rcases hdegree : (ofCoefficients cs).degree with - | d
  · -- all coefficients are zero
    have hzero : ofList cs = 0 := by
      rw [← formal_ofCoefficients, ← degree_eq_none_iff (isTrimmed_ofCoefficients cs), hdegree]
    rw [← coeff_ofList, hzero, Polynomial.coeff_zero, mul_zero]
  · obtain ⟨-, hzero⟩ := degree_ofCoefficients_eq_some_iff.mp hdegree
    have hlt := hd d hdegree
    rw [hzero (i + k) (by omega), mul_zero]

/-- **Polynomials are evaluated and differentiated as the formal polynomials they denote.**  The
list of coefficients may be any, with zeros at its end or without, and there may be any number of
derivatives.  The degree is the place of the last coefficient that is not zero, and it drops by one
with each derivative until there is none. -/
theorem higherDerivatives_formal [CharZero K] (cs : List K) (k : ℕ) :
    (∀ x, (ofCoefficients cs).evaluate x = ∑ i ∈ range cs.length, cs.getD i 0 * x ^ i)
      ∧ (∀ x, (derivative^[k] (ofCoefficients cs)).evaluate x
        = ∑ i ∈ Ico k cs.length, i.descFactorial k * cs.getD i 0 * x ^ (i - k))
      ∧ (∀ d, (ofCoefficients cs).degree = some d
        ↔ cs.getD d 0 ≠ 0 ∧ ∀ i, d < i → cs.getD i 0 = 0)
      ∧ (∀ d, (ofCoefficients cs).degree = some d → k ≤ d →
        (derivative^[k] (ofCoefficients cs)).degree = some (d - k))
      ∧ ((∀ d, (ofCoefficients cs).degree = some d → d < k) →
        (derivative^[k] (ofCoefficients cs)).degree = none) := by
  refine ⟨fun x => ?_, evaluate_iterate_derivative_eq_sum cs k,
    fun d => degree_ofCoefficients_eq_some_iff, fun d hd hk => degree_iterate_derivative hd hk,
    degree_iterate_derivative_eq_none cs k⟩
  have hvalue := evaluate_iterate_derivative_eq_sum cs 0 x
  rw [Function.iterate_zero_apply] at hvalue
  rw [hvalue, range_eq_Ico]
  apply sum_congr rfl
  intro i _
  rw [Nat.descFactorial_zero, Nat.cast_one, one_mul, Nat.sub_zero]

/-- Of `1 + 2x² + 3x³`, given with two zeros more than are needed, the second derivative is
`4 + 18x`, and the fourth one is zero. -/
theorem higherDerivatives_formal_cubic :
    (ofCoefficients [(1 : ℚ), 0, 2, 3, 0, 0]).degree = some 3
      ∧ (derivative^[2] (ofCoefficients [(1 : ℚ), 0, 2, 3, 0, 0])).degree = some 1
      ∧ (derivative^[2] (ofCoefficients [(1 : ℚ), 0, 2, 3, 0, 0])).evaluate (1 / 2) = 13
      ∧ ∑ i ∈ Ico 2 6, i.descFactorial 2 * [(1 : ℚ), 0, 2, 3, 0, 0].getD i 0 * (1 / 2) ^ (i - 2)
        = 13
      ∧ (derivative^[4] (ofCoefficients [(1 : ℚ), 0, 2, 3, 0, 0])).degree = none := by
  have hdegree : (ofCoefficients [(1 : ℚ), 0, 2, 3, 0, 0]).degree = some 3 := by decide +kernel
  have hvalue :
      (derivative^[2] (ofCoefficients [(1 : ℚ), 0, 2, 3, 0, 0])).evaluate (1 / 2) = 13 := by
    decide +kernel
  obtain ⟨-, hsum, -, htwo, -⟩ := higherDerivatives_formal [(1 : ℚ), 0, 2, 3, 0, 0] 2
  obtain ⟨-, -, -, -, hfour⟩ := higherDerivatives_formal [(1 : ℚ), 0, 2, 3, 0, 0] 4
  refine ⟨hdegree, htwo 3 hdegree (by decide), hvalue, (hsum (1 / 2)).symm.trans hvalue,
    hfour fun d hd => ?_⟩
  rw [hdegree] at hd
  cases hd
  decide

end NewtonMethod.DensePolynomial
