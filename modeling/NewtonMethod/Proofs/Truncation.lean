/-
NewtonMethod/Proofs/Truncation.lean

The error of difference quotients on polynomials, without rounding.

Over a field of characteristic zero a polynomial is its own Taylor expansion,

    p(x + h) = p(x) + p'(x)·h + p''(x)·h²/2! + ... + p⁽ᵈ⁾(x)·hᵈ/d!

and `expansionFrom l` is what is left of it from the `l`-th term on, divided by
`hˡ`.  The forward quotient is the expansion from the first term on.  In the central
quotient the terms of even order cancel, and those of odd order are left
(`oddExpansionFrom`):

    forward    p'(x) + h·(p''(x)/2! + p'''(x)·h/3! + ...)
    central    p'(x) + h²·(p'''(x)/3! + p⁽⁵⁾(x)·h²/5! + ...)

So the error of the first is `h` times a polynomial in `h` and that of the second is
`h²` times one, and there is none up to degree one and degree two.

The order of the field is that of its arithmetic.  It need not agree with the
operations, so any field of characteristic zero will do.
-/
import Mathlib.Algebra.BigOperators.Field
import Mathlib.Algebra.Order.Interval.Finset.SuccPred
import Mathlib.Algebra.Polynomial.Taylor
import NewtonMethod.Proofs.FormalPolynomial
import NewtonMethod.Proofs.Quotients

namespace NewtonMethod.DensePolynomial

open Finset Nat

variable {K : Type} [Field K] [LinearOrder K] [ElementaryFunctions K]

/-- The expansion of `p` at `x` from its `l`-th term on, divided by the `l`-th power of `h`. -/
def expansionFrom (p : DensePolynomial K) (x h : K) (l : ℕ) : K :=
  ∑ k ∈ Icc l (p.degree.getD 0), (derivative^[k] p).evaluate x * h ^ (k - l) / k !

/-- The terms of odd order of the expansion. -/
def oddExpansionFrom (p : DensePolynomial K) (x h : K) (l : ℕ) : K :=
  ∑ k ∈ Icc l (p.degree.getD 0) with Odd k, (derivative^[k] p).evaluate x * h ^ (k - l) / k !

/-! ### Taylor's formula -/

section Taylor

variable (p : DensePolynomial K) (x h : K)

theorem evaluate_iterate_derivative (k : ℕ) :
    (derivative^[k] p).evaluate x = k ! * (Polynomial.taylor x p.formal).coeff k := by
  rw [evaluate_eq, formal_iterate_derivative, ← Polynomial.factorial_smul_hasseDeriv,
    Polynomial.taylor_coeff, ← nsmul_eq_mul, LinearMap.smul_apply, Polynomial.eval_smul]

/-- A derivative of higher order than the degree vanishes. -/
theorem evaluate_iterate_derivative_of_lt {k : ℕ} (hk : p.degree.getD 0 < k) :
    (derivative^[k] p).evaluate x = 0 := by
  have hdegree : (Polynomial.taylor x p.formal).natDegree < k := by
    rw [Polynomial.natDegree_taylor]
    exact p.natDegree_formal_le.trans_lt hk
  rw [evaluate_iterate_derivative, Polynomial.coeff_eq_zero_of_natDegree_lt hdegree, mul_zero]

/-- Each term of the expansion is the one before the rest. -/
theorem expansionFrom_eq_add (l : ℕ) :
    p.expansionFrom x h l
      = (derivative^[l] p).evaluate x / l ! + h * p.expansionFrom x h (l + 1) := by
  rcases Nat.lt_or_ge (p.degree.getD 0) l with hlt | hle
  · -- beyond the degree there is nothing on either side
    rw [expansionFrom, expansionFrom, evaluate_iterate_derivative_of_lt p x hlt,
      Icc_eq_empty_of_lt hlt, Icc_eq_empty_of_lt (hlt.trans l.lt_succ_self)]
    simp
  · have hrest : h * p.expansionFrom x h (l + 1)
        = ∑ k ∈ Ioc l (p.degree.getD 0), (derivative^[k] p).evaluate x * h ^ (k - l) / k ! := by
      rw [expansionFrom, mul_sum, Icc_add_one_left_eq_Ioc]
      apply sum_congr rfl
      intro k hk
      have hexponent : k - l = k - (l + 1) + 1 := by
        have := (mem_Ioc.mp hk).1
        omega
      rw [hexponent, pow_succ]
      ring
    rw [hrest, expansionFrom, ← add_sum_Ioc_eq_sum_Icc hle, Nat.sub_self, pow_zero, mul_one]

variable [CharZero K]

theorem evaluate_add : p.evaluate (x + h) = p.expansionFrom x h 0 := by
  have hdegree : (Polynomial.taylor x p.formal).natDegree < p.degree.getD 0 + 1 := by
    rw [Polynomial.natDegree_taylor]
    exact Nat.lt_succ_of_le p.natDegree_formal_le
  rw [evaluate_eq, add_comm x h, ← Polynomial.taylor_eval, Polynomial.eval_eq_sum_range' hdegree,
    expansionFrom, Nat.range_succ_eq_Icc_zero]
  apply sum_congr rfl
  intro k _
  -- in characteristic zero the factorial can be cancelled
  have hk : (k ! : K) ≠ 0 := Nat.cast_ne_zero.mpr k.factorial_ne_zero
  rw [evaluate_iterate_derivative, Nat.sub_zero, mul_assoc, mul_div_cancel_left₀ _ hk]

/-- Between an expansion over `h` and one over `-h` the terms of even order cancel. -/
theorem oddExpansionFrom_eq {l : ℕ} (hl : Odd l) :
    p.oddExpansionFrom x h l = (p.expansionFrom x h l + p.expansionFrom x (-h) l) / 2 := by
  rw [oddExpansionFrom, expansionFrom, expansionFrom, ← sum_add_distrib, sum_div, sum_filter]
  apply sum_congr rfl
  intro k hk
  have hlk : l ≤ k := (mem_Icc.mp hk).1
  split
  next hodd =>
    have heven : Even (k - l) := Nat.Odd.sub_odd hodd hl
    rw [heven.neg_pow]
    ring
  next heven =>
    have hodd : Odd (k - l) := Nat.Even.sub_odd hlk (Nat.not_odd_iff_even.mp heven) hl
    rw [hodd.neg_pow]
    ring

/-- Two steps of the one expansion and of the other are one step of that with the odd terms. -/
theorem oddExpansionFrom_eq_add {l : ℕ} (hl : Odd l) :
    p.oddExpansionFrom x h l
      = (derivative^[l] p).evaluate x / l ! + h ^ 2 * p.oddExpansionFrom x h (l + 2) := by
  have htwo (a : K) : p.expansionFrom x a l
      = (derivative^[l] p).evaluate x / l !
        + a * ((derivative^[l + 1] p).evaluate x / (l + 1)! + a * p.expansionFrom x a (l + 2)) := by
    rw [p.expansionFrom_eq_add x a l, p.expansionFrom_eq_add x a (l + 1)]
  rw [p.oddExpansionFrom_eq x h hl, p.oddExpansionFrom_eq x h (hl.add_even even_two), htwo h,
    htwo (-h)]
  ring

end Taylor

/-! ### The quotients -/

variable [CharZero K]

section Quotients

variable (p : DensePolynomial K) (x : K) {h : K} (hh : h ≠ 0)

include hh

theorem forward_quotient :
    (p.evaluate (x + h) - p.evaluate x) / h = p.expansionFrom x h 1 := by
  have hfirst : (derivative^[0] p).evaluate x / 0 ! = p.evaluate x := by
    rw [Nat.factorial_zero, Nat.cast_one, div_one]
    rfl
  rw [evaluate_add, expansionFrom_eq_add, hfirst, add_sub_cancel_left, mul_div_cancel_left₀ _ hh]

theorem central_quotient :
    (p.evaluate (x + h) - p.evaluate (x + -h)) / (2 * h) = p.oddExpansionFrom x h 1 := by
  have hahead := p.forward_quotient x hh
  have hbehind := p.forward_quotient x (neg_ne_zero.mpr hh)
  rw [p.oddExpansionFrom_eq x h odd_one, ← hahead, ← hbehind]
  field_simp
  ring

end Quotients

/-- **The truncation error of difference quotients on polynomials.**  The forward quotient is the
Taylor expansion without its first term, divided by `h`, and the central quotient consists of the
terms of odd order of that.  The first of these terms is the derivative, so the errors are `h` times
and `h²` times the rest of the expansion, of which nothing is left for a polynomial of degree one
and of degree two at most.  The list of coefficients may be any, with or without zeros at its
end. -/
theorem differences_eq_expansion (p : DensePolynomial K) (x : K) {h : K} (hh : h ≠ 0) :
    (Differences.forward (fun t => .ok (p.evaluate t)) x (p.evaluate x) h).outcome
        = .ok (p.expansionFrom x h 1)
      ∧ (Differences.central (fun t => .ok (p.evaluate t)) x (p.evaluate x) h).outcome
        = .ok (p.oddExpansionFrom x h 1)
      ∧ p.expansionFrom x h 1 = p.derivative.evaluate x + h * p.expansionFrom x h 2
      ∧ p.oddExpansionFrom x h 1 = p.derivative.evaluate x + h ^ 2 * p.oddExpansionFrom x h 3
      ∧ (p.degree.getD 0 ≤ 1 → p.expansionFrom x h 2 = 0)
      ∧ (p.degree.getD 0 ≤ 2 → p.oddExpansionFrom x h 3 = 0) := by
  have hfirst : (derivative^[1] p).evaluate x / 1 ! = p.derivative.evaluate x := by
    rw [Nat.factorial_one, Nat.cast_one, div_one]
    rfl
  have htwo : (Arithmetic.ofNat 2 : K) = 2 := Nat.cast_ofNat
  have hforward := Differences.Routine.forward.outcome_number p.evaluate x h
  have hcentral := Differences.Routine.central.outcome_number p.evaluate x h
  refine ⟨?_, ?_, ?_, ?_, ?_, ?_⟩
  · rw [← p.forward_quotient x hh]
    exact hforward
  · rw [← p.central_quotient x hh, ← htwo]
    exact hcentral
  · rw [p.expansionFrom_eq_add x h 1, hfirst]
  · rw [p.oddExpansionFrom_eq_add x h odd_one, hfirst]
  · intro hdegree
    rw [expansionFrom, Icc_eq_empty_of_lt (Nat.lt_succ_of_le hdegree), sum_empty]
  · intro hdegree
    rw [oddExpansionFrom, Icc_eq_empty_of_lt (Nat.lt_succ_of_le hdegree), filter_empty, sum_empty]

/-- The polynomial `1 + 2x² + 3x³`, given with a zero more than is needed. -/
def cubic : DensePolynomial ℚ := ofCoefficients [1, 0, 2, 3, 0]

/-- At 1/2 its slope is 17/4, and with the distance 1/3 the quotients are 27/4 and 55/12. -/
theorem differences_eq_expansion_cubic :
    (1 / 3 : ℚ) ≠ 0
      ∧ cubic.degree = some 3
      ∧ cubic.derivative.evaluate (1 / 2) = 17 / 4
      ∧ (Differences.forward (fun t => .ok (cubic.evaluate t)) (1 / 2) (cubic.evaluate (1 / 2))
          (1 / 3)).outcome = .ok (27 / 4)
      ∧ (Differences.central (fun t => .ok (cubic.evaluate t)) (1 / 2) (cubic.evaluate (1 / 2))
          (1 / 3)).outcome = .ok (55 / 12)
      ∧ (27 / 4 : ℚ) = 17 / 4 + 1 / 3 * cubic.expansionFrom (1 / 2) (1 / 3) 2
      ∧ (55 / 12 : ℚ) = 17 / 4 + (1 / 3) ^ 2 * cubic.oddExpansionFrom (1 / 2) (1 / 3) 3 := by
  have hne : (1 / 3 : ℚ) ≠ 0 := by decide +kernel
  have hslope : cubic.derivative.evaluate (1 / 2) = 17 / 4 := by decide +kernel
  have hforward : cubic.expansionFrom (1 / 2) (1 / 3) 1 = 27 / 4 := by decide +kernel
  have hcentral : cubic.oddExpansionFrom (1 / 2) (1 / 3) 1 = 55 / 12 := by decide +kernel
  have h := differences_eq_expansion cubic (1 / 2) hne
  rw [hslope, hforward, hcentral] at h
  exact ⟨hne, by decide +kernel, hslope, h.1, h.2.1, h.2.2.1, h.2.2.2.1⟩

end NewtonMethod.DensePolynomial
