/-
NewtonMethod/Proofs/ResidualNorm.lean

The norm of a point and the coordinates of a residual.

What a search compares with the tolerance is one number for all coordinates of a
residual.  In an arithmetic with exact square roots it is the Euclidean norm of
the coordinates, although it is computed in another way: `Norm.IsEuclidean` says
what this number is to them.  It is determined by its square and its sign, and
these are known of a norm whose squares are added in any order
(`Norm.scaled_spec`).  So it makes no difference that long lists are added in
eight lanes and short lists of a fixed length by formulas of their own.

Since no coordinate is larger than the norm, a root that is found has a residual
all of whose coordinates are within the tolerance.  Main result:
`norm_isEuclidean`, in all three spaces.
-/
import Mathlib.Algebra.Order.BigOperators.Group.List
import NewtonMethod.Proofs.EuclideanNorm
import NewtonMethod.Proofs.Failure
import NewtonMethod.Space.Column
import NewtonMethod.Space.Fixed

namespace NewtonMethod

open PointSpace Run Solver

variable {K : Type} [Field K] [LinearOrder K]

/-! ### The norm of a list -/

section List

variable [IsStrictOrderedRing K]

/-- `r` is the Euclidean norm of a list of numbers. -/
structure Norm.IsEuclidean (xs : List K) (r : K) : Prop where
  nonneg : 0 ≤ r
  sq_eq : r ^ 2 = (xs.map (· ^ 2)).sum
  eq_zero_iff : r = 0 ↔ ∀ x ∈ xs, x = 0
  abs_le : ∀ x ∈ xs, |x| ≤ r

/-- The sign and the square determine the rest. -/
theorem Norm.IsEuclidean.of_sq_eq {xs : List K} {r : K} (hr : 0 ≤ r)
    (hsq : r ^ 2 = (xs.map (· ^ 2)).sum) : IsEuclidean xs r := by
  have hle : ∀ x ∈ xs, |x| ≤ r := by
    intro x hx
    -- a square is at most the sum of all squares
    have hterm : x ^ 2 ≤ (xs.map (· ^ 2)).sum := by
      refine List.single_le_sum ?_ _ (List.mem_map_of_mem hx)
      simp only [List.forall_mem_map]
      exact fun y _ => sq_nonneg y
    exact abs_le_of_sq_le_sq (hsq ▸ hterm) hr
  refine ⟨hr, hsq, ⟨fun hzero x hx => ?_, fun hzero => ?_⟩, hle⟩
  · exact abs_nonpos_iff.mp (hzero ▸ hle x hx)
  · have hsquares : ∀ q ∈ xs.map (· ^ 2), q = 0 := by
      simpa using hzero
    rw [List.sum_eq_zero hsquares] at hsq
    exact pow_eq_zero_iff two_ne_zero |>.mp hsq

/-- A norm is Euclidean in whatever order the squares are added. -/
theorem Norm.isEuclidean_scaled [ElementaryFunctions K] [ExactRoots K] {sum : List K → K}
    (hsum : ∀ ps, sum ps = ps.sum) (xs : List K) : IsEuclidean xs (scaled sum xs) :=
  .of_sq_eq (scaled_spec hsum xs).1 (scaled_spec hsum xs).2

end List

/-! ### The residual at a root -/

variable [ElementaryFunctions K]

section Residual

variable {X J : Type} [PointSpace X K J]

/-- If norms bound coordinates, a residual norm that is accepted bounds the coordinates of the
residual. -/
theorem Solver.exists_residual_le (hnorm : ∀ x : X, ∀ a ∈ coordinates x, |a| ≤ norm x)
    {s : Solver X K J} {x root : X} (h : (s.solve x).outcome = .ok root) :
    ∃ fx, s.function root = .ok fx ∧ ∀ a ∈ coordinates fx, |a| ≤ s.config.tolerance := by
  obtain ⟨found, hfound, hroot⟩ := bind_eq_ok_iff.mp h
  obtain rfl : found.root = root := Except.ok.inj hroot
  obtain ⟨-, ⟨fx, hf, -, hr⟩, hle⟩ := report_eq_ok_iff_tests.mp hfound
  refine ⟨fx, hf, fun a ha => ?_⟩
  calc |a| ≤ norm fx := hnorm fx a ha
    _ = found.residualNorm := hr
    _ ≤ s.config.tolerance := Exact.le_iff.mp hle

variable (X)

/-- The norm of every point is the Euclidean norm of its coordinates, and at every root that a
solver finds each coordinate of the residual is within the tolerance. -/
structure NormIsEuclidean : Prop where
  norm (x : X) : Norm.IsEuclidean (coordinates x).toList (norm x)
  root (s : Solver X K J) (x root : X) : (s.solve x).outcome = .ok root →
    ∃ fx, s.function root = .ok fx ∧ ∀ a ∈ coordinates fx, |a| ≤ s.config.tolerance

variable {X}

theorem NormIsEuclidean.of_norm
    (h : ∀ x : X, Norm.IsEuclidean (coordinates x).toList (PointSpace.norm x)) :
    NormIsEuclidean X where
  norm := h
  root _ _ _ hroot := exists_residual_le (fun x a ha => (h x).abs_le a (by simpa using ha)) hroot

end Residual

/-- **The norm is the Euclidean norm.**  In every arithmetic with exact square roots this holds of
the lists of any length, of the lists of every fixed length and of the numbers: the norm is not
negative, its square is the sum of the squares of the coordinates, it is zero exactly if they all
are, and it bounds each of them.  So each coordinate of the residual at a root is within the
tolerance. -/
theorem norm_isEuclidean [IsStrictOrderedRing K] [ExactRoots K] :
    NormIsEuclidean (Array K) ∧ (∀ n, NormIsEuclidean (Vector K n)) ∧ NormIsEuclidean K := by
  refine ⟨.of_norm fun x => ?_, fun n => .of_norm fun x => ?_, .of_norm fun x => ?_⟩
  · exact Norm.isEuclidean_scaled Norm.interleavedSum_eq x.toList
  · exact Norm.isEuclidean_scaled Norm.shortSum_eq x.toList
  · refine .of_sq_eq (abs_nonneg x) ?_
    show |x| ^ 2 = ([x].map (· ^ 2)).sum
    rw [sq_abs, List.map_singleton, List.sum_singleton]

/-- The residual of the start has norm 5, which is the tolerance, so the start is the root. -/
theorem norm_isEuclidean_threeFour :
    let x : Array ℝ := #[3, 4]
    let s : Solver (Array ℝ) ℝ (Jacobian ℝ) :=
      ⟨fun x => .ok x, .differences ⟨1, .forward⟩, ⟨5, 1, none, 1, .forward, 0⟩⟩
    norm x = 5 ∧ (s.solve x).outcome = .ok x
      ∧ ∃ fx, s.function x = .ok fx ∧ ∀ a ∈ coordinates fx, |a| ≤ 5 := by
  intro x s
  obtain ⟨hcolumn, -, -⟩ := norm_isEuclidean (K := ℝ)
  have hnorm : norm x = 5 := by
    refine (sq_eq_sq₀ (hcolumn.norm x).nonneg (by norm_num)).mp ((hcolumn.norm x).sq_eq.trans ?_)
    show ([(3 : ℝ), 4].map (· ^ 2)).sum = 5 ^ 2
    norm_num
  have hvalid : s.config.validate = .ok () := by
    refine Exact.validate_eq_ok_iff.mpr ⟨by norm_num [s], one_pos, ?_, le_rfl⟩
    rintro r ⟨⟩
  have hfin : isFinite x = true := by
    show x.all (fun _ => true) = true
    exact Array.all_eq_true.mpr fun _ _ => rfl
  have haccept : s.Accepts x 5 := ⟨⟨x, rfl, hfin, hnorm⟩, Exact.le_iff.mpr le_rfl⟩
  have hreport : (s.report x).outcome = .ok ⟨x, 0, 5⟩ := by
    rw [report_eq_search (checkStart_eq_pure hvalid hfin) rfl]
    exact search_of_accepts haccept 0 0
  have hsolve : (s.solve x).outcome = .ok x := bind_eq_ok_iff.mpr ⟨_, hreport, rfl⟩
  exact ⟨hnorm, hsolve, hcolumn.root s x x hsolve⟩

end NewtonMethod
