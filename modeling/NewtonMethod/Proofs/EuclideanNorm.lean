/-
NewtonMethod/Proofs/EuclideanNorm.lean

The norm of a list of coordinates, in exact arithmetic.

The order in which the squares are added is of no account when nothing is
rounded (`interleavedSum_eq`, `shortSum_eq`), and neither is the division by the
largest magnitude, which is multiplied in again.  What is left is the root of
the sum of the squares.  Over an ordered field that root is described, not
named: by `scaled_spec` the norm is not negative and its square is the sum of
the squares, in every arithmetic whose square root is exact (`ExactRoots`).
The real numbers are one.

A list of zeros has the norm zero whatever the square root is (`scaled_eq_zero`),
since its largest magnitude is returned as it is.
-/
import Mathlib.Algebra.BigOperators.Ring.List
import Mathlib.Algebra.Order.BigOperators.Group.List
import Mathlib.Analysis.SpecialFunctions.Pow.Real
import NewtonMethod.Norm
import NewtonMethod.Proofs.Exact

namespace NewtonMethod

/-! ### Exact square roots -/

/-- The square root of a number that is not negative is exact. -/
class ExactRoots (K : Type) [Field K] [LinearOrder K] [ElementaryFunctions K] : Prop where
  sqrt_nonneg {a : K} : 0 ≤ a → 0 ≤ Arithmetic.sqrt a
  sq_sqrt {a : K} : 0 ≤ a → Arithmetic.sqrt a ^ 2 = a

/-- The functions of real analysis. -/
noncomputable instance realFunctions : ElementaryFunctions ℝ where
  undefined := 0
  sqrt := Real.sqrt
  sin := Real.sin
  cos := Real.cos
  exp := Real.exp
  ln := Real.log
  pow := Real.rpow

instance : ExactRoots ℝ where
  sqrt_nonneg _ := Real.sqrt_nonneg _
  sq_sqrt h := Real.sq_sqrt h

namespace Norm

variable {K : Type} [Field K] [LinearOrder K] [ElementaryFunctions K]

/-! ### Sums -/

/-- The eight running sums add up to what they were and the rest of the list. -/
theorem lanes_eq (a0 a1 a2 a3 a4 a5 a6 a7 : K) (ps : List K) :
    lanes a0 a1 a2 a3 a4 a5 a6 a7 ps = a0 + a1 + a2 + a3 + a4 + a5 + a6 + a7 + ps.sum := by
  fun_induction lanes a0 a1 a2 a3 a4 a5 a6 a7 ps with
  -- eight numbers are left, one for each lane
  | case1 a0 a1 a2 a3 a4 a5 a6 a7 p0 p1 p2 p3 p4 p5 p6 p7 rest ih =>
    rw [ih]
    simp only [List.sum_cons]
    ring
  | case2 a0 a1 a2 a3 a4 a5 a6 a7 rest =>
    -- what is left when there are fewer than eight is added one by one
    have hfold : ∀ (r : K) (l : List K), l.foldl (· + ·) r = r + l.sum := by
      intro r l
      induction l generalizing r with
      | nil => simp
      | cons p l ih => rw [List.foldl_cons, ih, List.sum_cons, add_assoc]
    rw [hfold]
    ring

/-- The sum with eight lanes is the sum. -/
theorem interleavedSum_eq (ps : List K) : interleavedSum ps = ps.sum := by
  rw [interleavedSum, lanes_eq]
  ring

theorem shortSum_eq (ps : List K) : shortSum ps = ps.sum := by
  fun_cases shortSum ps with
  | case1 p0 p1 => simp
  | case2 p0 p1 p2 => simp [add_assoc]
  | case3 p0 p1 p2 p3 =>
    simp only [List.sum_cons, List.sum_nil]
    ring
  | case4 ps => exact interleavedSum_eq ps

/-! ### The largest magnitude -/

theorem larger_eq_max (a b : K) : Arithmetic.larger a b = max a b := by
  rw [Arithmetic.larger, max_comm, max_def]
  simp only [Exact.le_iff]

/-- A bound of the magnitudes is passed along the fold. -/
theorem foldl_larger_le_iff {a m : K} {xs : List K} :
    xs.foldl (fun acc y => Arithmetic.larger acc (Arithmetic.abs y)) a ≤ m
      ↔ a ≤ m ∧ ∀ x ∈ xs, |x| ≤ m := by
  induction xs generalizing a with
  | nil => simp
  | cons x xs ih =>
    rw [List.foldl_cons, ih, larger_eq_max, max_le_iff, List.forall_mem_cons, and_assoc]
    rfl

/-- The largest magnitude is the least bound of all magnitudes. -/
theorem largest_le_iff {m : K} {xs : List K} (hm : 0 ≤ m) :
    largest xs ≤ m ↔ ∀ x ∈ xs, |x| ≤ m := by
  rcases xs with - | ⟨x, xs⟩
  · simpa [largest] using hm
  · rw [largest, foldl_larger_le_iff, List.forall_mem_cons]
    rfl

variable [IsStrictOrderedRing K]

theorem largest_nonneg (xs : List K) : 0 ≤ largest xs := by
  rcases xs with - | ⟨x, xs⟩
  · exact le_rfl
  · exact (abs_nonneg x).trans (foldl_larger_le_iff.mp le_rfl).1

/-- The largest magnitude is zero only if there is nothing but zeros. -/
theorem largest_eq_zero_iff {xs : List K} : largest xs = 0 ↔ ∀ x ∈ xs, x = 0 := by
  rw [← (largest_nonneg xs).ge_iff_eq', largest_le_iff le_rfl]
  simp only [abs_nonpos_iff]

/-! ### The norm -/

/-- A list of zeros has norm zero, whatever the sum is. -/
theorem scaled_eq_zero (sum : List K → K) {xs : List K} (h : ∀ x ∈ xs, x = 0) :
    scaled sum xs = 0 := by
  have hscale : largest xs = 0 := largest_eq_zero_iff.mpr h
  have hzero : Arithmetic.isZero (largest xs) = true := Exact.isZero_iff.mpr hscale
  rw [scaled]
  simp only [hzero, Bool.true_or, if_true]
  exact hscale

omit [IsStrictOrderedRing K] in
/-- The norm of a list that has an entry other than zero. -/
theorem scaled_of_ne_zero (sum : List K → K) {xs : List K} (h : largest xs ≠ 0) :
    scaled sum xs
      = largest xs * Arithmetic.sqrt (sum ((xs.map (· / largest xs)).map fun u => u * u)) := by
  have hzero : Arithmetic.isZero (largest xs) = false :=
    Bool.eq_false_iff.mpr (mt Exact.isZero_iff.mp h)
  rw [scaled]
  simp only [hzero, Exact.isFinite_eq, Bool.not_true, Bool.or_self, Bool.false_eq_true, if_false]

variable [ExactRoots K]

/-- The norm is not negative, and its square is the sum of the squares. -/
theorem scaled_spec {sum : List K → K} (hsum : ∀ ps, sum ps = ps.sum) (xs : List K) :
    0 ≤ scaled sum xs ∧ scaled sum xs ^ 2 = (xs.map (· ^ 2)).sum := by
  rcases eq_or_ne (largest xs) 0 with hscale | hscale
  · -- nothing to scale by: the list holds zeros only
    have hxs : ∀ x ∈ xs, x = 0 := largest_eq_zero_iff.mp hscale
    rw [scaled_eq_zero sum hxs]
    refine ⟨le_rfl, ?_⟩
    have hsquares : ∀ q ∈ xs.map (· ^ 2), q = 0 := by
      simpa using hxs
    rw [List.sum_eq_zero hsquares, zero_pow two_ne_zero]
  · -- the scale is a common factor of the squares, and its square root comes out
    have hmap : (xs.map (· / largest xs)).map (fun u => u * u)
        = xs.map fun x => x ^ 2 * (largest xs ^ 2)⁻¹ := by
      rw [List.map_map]
      refine List.map_congr_left fun x _ => ?_
      show x / largest xs * (x / largest xs) = _
      field_simp
    have hnonneg : 0 ≤ (xs.map fun x => x ^ 2 * (largest xs ^ 2)⁻¹).sum := by
      refine List.sum_nonneg ?_
      simp only [List.forall_mem_map]
      intro x _
      positivity
    rw [scaled_of_ne_zero sum hscale, hmap, hsum]
    refine ⟨mul_nonneg (largest_nonneg xs) (ExactRoots.sqrt_nonneg hnonneg), ?_⟩
    rw [mul_pow, ExactRoots.sq_sqrt hnonneg, List.sum_map_mul_right]
    field_simp

end Norm

end NewtonMethod
