/-
NewtonMethod/Proofs/Coordinates.lean

Points as vectors, in exact arithmetic.

`Coordinates X K J n` says that among the points `X` there are those with `n`
coordinates, one for every vector `Fin n → K`, and among the derivatives `J` those
of `n` rows and columns, one for every table, and that the operations of the
space are those of vectors and matrices on them.  There is one for the lists of
any length, `column`, one for the lists of a fixed length, `fixed`, and one for
the numbers, `number`, which are vectors of length one.  What is proved of a
search from such laws holds in all three.

Two laws are about the norm.  That of the zero vector is zero in any arithmetic;
what the norm of another vector is can only be said if square roots are exact.
-/
import Mathlib.Algebra.BigOperators.Fin
import NewtonMethod.Proofs.EuclideanNorm
import NewtonMethod.Proofs.LinearSolve
import NewtonMethod.Space.Scalar

namespace NewtonMethod

open Matrix PointSpace

/-- The points with `n` coordinates as vectors, and the derivatives of that size as tables. -/
structure Coordinates (X K J : Type) [Field K] [LinearOrder K] [ElementaryFunctions K]
    [PointSpace X K J] (n : ℕ) where
  /-- The point with the given coordinates. -/
  point : (Fin n → K) → X
  /-- The derivative with the given entries. -/
  slope : Table K n n → J
  dimension_point (v : Fin n → K) : dimension (point v) = n
  isFinite_point (v : Fin n → K) : isFinite (point v) = true
  perturbed_point (v : Fin n → K) (i : Fin n) (h : K) :
    perturbed (point v) i h = .ok (point (v + Pi.single i h))
  scaled_point (v : Fin n → K) (a : K) : scaled (point v) a = point (a • v)
  divided_point (v : Fin n → K) (a : K) : divided (point v) a = point (a⁻¹ • v)
  difference_point (v w : Fin n → K) : difference (point v) (point w) = .ok (point (v - w))
  assemble_point (v : Fin n → K) (A : Table K n n) :
    assemble (point v) ((List.finRange n).map fun i => point (A.toMatrix.col i)) = .ok (slope A)
  isFiniteDerivative_slope (A : Table K n n) : isFiniteDerivative X (slope A) = true
  solveLinear_slope {A : Table K n n} {b : Fin n → K} {tolerance : K} (ht : 0 ≤ tolerance)
    (hA : ∀ i, tolerance < |(Factors.ofTable A).table.entry i i|) :
    ∃ d, IsOnlySolution A.toMatrix b d ∧ solveLinear (slope A) (point b) tolerance = .ok (point d)
  norm_point_zero : norm (point 0) = 0
  norm_point_spec [ExactRoots K] (v : Fin n → K) :
    0 ≤ norm (point v) ∧ norm (point v) ^ 2 = ∑ i, v i ^ 2

variable {K : Type} {n : ℕ}

/-! ### Operations on lists of a fixed length -/

theorem ofFn_get (b : Vector K n) : Vector.ofFn b.get = b := by
  ext i hi
  rw [Vector.getElem_ofFn]
  rfl

section Fixed

variable [Field K] [LinearOrder K] [ElementaryFunctions K]

/-- One coordinate is moved, which is to add a multiple of a unit vector. -/
theorem perturbed_ofFn (v : Fin n → K) (i : Fin n) (h : K) :
    Fixed.perturbed (Vector.ofFn v) i h = .ok (Vector.ofFn (v + Pi.single i h)) := by
  rw [Fixed.perturbed, dif_pos i.isLt]
  refine congrArg Except.ok (Vector.ext fun k hk => ?_)
  simp only [Vector.getElem_set, Vector.getElem_ofFn, Pi.add_apply, Pi.single_apply, Fin.ext_iff]
  -- the coordinate that is moved, and the others
  rcases eq_or_ne i.val k with rfl | hik
  · simp
  · simp [hik, hik.symm]

theorem map_mul_ofFn (v : Fin n → K) (a : K) :
    (Vector.ofFn v).map (· * a) = Vector.ofFn (a • v) := by
  ext k hk
  simp [mul_comm]

theorem map_div_ofFn (v : Fin n → K) (a : K) :
    (Vector.ofFn v).map (· / a) = Vector.ofFn (a⁻¹ • v) := by
  ext k hk
  simp [div_eq_inv_mul]

theorem zipWith_sub_ofFn (v w : Fin n → K) :
    (Vector.ofFn v).zipWith (· - ·) (Vector.ofFn w) = Vector.ofFn (v - w) := by
  ext k hk
  simp

omit [Field K] [LinearOrder K] [ElementaryFunctions K] in
theorem assemble_col (A : Table K n n) :
    Fixed.assemble ((List.finRange n).map fun i => Vector.ofFn (A.toMatrix.col i)) = .ok A := by
  rw [Fixed.assemble, dif_pos (by simp)]
  refine congrArg Except.ok (Table.ext fun i j => ?_)
  simp

theorem all_isFinite_table (A : Table K n n) : A.all Arithmetic.isFinite = true := by
  simp [Table.all]

/-- A table whose pivots exceed the tolerance has an answer for every right-hand side. -/
theorem exists_isOnlySolution [IsStrictOrderedRing K] {A : Table K n n} {tolerance : K}
    (ht : 0 ≤ tolerance) (hA : ∀ i, tolerance < |(Factors.ofTable A).table.entry i i|)
    (b : Fin n → K) :
    ∃ d, IsOnlySolution A.toMatrix b d
      ∧ solveLinear A (Vector.ofFn b) tolerance = .ok (Vector.ofFn d) := by
  -- the substitution has a quotient for each pivot, since none of them is zero
  obtain ⟨d, hd⟩ : ∃ d, (Factors.ofTable A).solve (Vector.ofFn b) = some d :=
    exists_backward_eq_some_iff.mpr fun i => abs_pos.mp (ht.trans_lt (hA i))
  have hsolve : solveLinear A (Vector.ofFn b) tolerance = .ok d :=
    solveLinear_eq_ok_iff.mpr ⟨hA, hd⟩
  have honly := isOnlySolution_of_solveLinear hsolve
  have hget : (Vector.ofFn b).get = b := funext (get_ofFn b)
  rw [hget] at honly
  exact ⟨d.get, honly, hsolve.trans (congrArg Except.ok (ofFn_get d).symm)⟩

end Fixed

/-! ### Operations on lists of any length -/

section Column

/-- To move a coordinate is the same with and without the length. -/
theorem Column.perturbed_toArray [Add K] (x : Vector K n) (i : ℕ) (h : K) :
    Column.perturbed x.toArray i h = (Fixed.perturbed x i h).map Vector.toArray := by
  obtain ⟨x, rfl⟩ := x
  rw [Column.perturbed, Fixed.perturbed]
  split <;> rfl

/-- Lists of one length can be subtracted. -/
theorem Column.difference_toArray [Sub K] (x y : Vector K n) :
    Column.difference x.toArray y.toArray = .ok (x.zipWith (· - ·) y).toArray :=
  if_pos (x.size_toArray.trans y.size_toArray.symm)

/-- A derivative is known by its shape and its entries. -/
theorem Jacobian.eq_of_entry {m rows cols : ℕ} (hrows : rows = m) (hcols : cols = n)
    {t : Table K rows cols} {A : Table K m n}
    (h : ∀ i j, t.entry (i.cast hrows.symm) (j.cast hcols.symm) = A.entry i j) :
    (⟨rows, cols, t⟩ : Jacobian K) = ⟨m, n, A⟩ := by
  subst hrows
  subst hcols
  exact congrArg _ (Table.ext h)

/-- A table need not be square to be assembled from its columns. -/
theorem Column.assemble_col {m rows : ℕ} (hrows : rows = m) (A : Table K m n) :
    Column.assemble rows ((List.finRange n).map fun j => (Vector.ofFn (A.toMatrix.col j)).toArray)
      = .ok ⟨m, n, A⟩ := by
  rw [Column.assemble, dif_pos (by simp [hrows])]
  refine congrArg Except.ok (Jacobian.eq_of_entry hrows (by simp) fun i j => ?_)
  rw [Table.entry_ofFn]
  simp
  rfl

end Column

/-! ### Operations on numbers -/

section Scalar

variable [Field K] [LinearOrder K] [ElementaryFunctions K]

/-- A table of one entry acts as a product. -/
theorem Scalar.mulVec_eq (A : Table K 1 1) (v : Fin 1 → K) :
    A.toMatrix *ᵥ v = fun _ => A.entry 0 0 * v 0 := by
  funext i
  obtain rfl : i = 0 := Subsingleton.elim i 0
  exact Fin.sum_univ_one fun j => A.entry 0 j * v j

/-- The pivot of a single entry has its magnitude. -/
theorem Scalar.abs_pivot [IsStrictOrderedRing K] (A : Table K 1 1) :
    |(Factors.ofTable A).table.entry 0 0| = |A.entry 0 0| := by
  have hdet := abs_det_eq_prod A
  rw [Matrix.det_fin_one, Fin.prod_univ_one] at hdet
  exact hdet.symm

/-- An equation between numbers is solved by a quotient. -/
theorem Scalar.exists_isOnlySolution [IsStrictOrderedRing K] {A : Table K 1 1} {tolerance : K}
    (ht : 0 ≤ tolerance) (hA : tolerance < |A.entry 0 0|) (b : Fin 1 → K) :
    ∃ d, IsOnlySolution A.toMatrix b d
      ∧ solveLinear (A.entry 0 0) (b 0) tolerance = .ok (d 0) := by
  have hne : A.entry 0 0 ≠ 0 := abs_pos.mp (ht.trans_lt hA)
  refine ⟨fun _ => b 0 / A.entry 0 0, ⟨?_, fun e he => ?_⟩, ?_⟩
  · rw [Scalar.mulVec_eq, mul_div_cancel₀ _ hne]
    funext i
    rw [Subsingleton.elim i 0]
  · funext i
    rw [Subsingleton.elim i 0, ← he, Scalar.mulVec_eq, mul_div_cancel_left₀ _ hne]
  · -- the test of the tolerance lets the entry pass
    exact if_neg (mt Exact.le_iff.mp hA.not_ge)

end Scalar

/-! ### The three kinds of points -/

namespace Coordinates

variable [Field K] [LinearOrder K] [IsStrictOrderedRing K] [ElementaryFunctions K]

omit [IsStrictOrderedRing K] in
theorem sum_map_sq (v : Fin n → K) : ((List.ofFn v).map (· ^ 2)).sum = ∑ i, v i ^ 2 := by
  rw [List.map_ofFn, List.sum_ofFn]
  rfl

/-- Lists of a fixed length. -/
def fixed : Coordinates (Vector K n) K (Table K n n) n where
  point := Vector.ofFn
  slope A := A
  dimension_point _ := rfl
  isFinite_point v := by
    show (Vector.ofFn v).all _ = true
    simp
  perturbed_point := perturbed_ofFn
  scaled_point := map_mul_ofFn
  divided_point := map_div_ofFn
  difference_point v w := congrArg Except.ok (zipWith_sub_ofFn v w)
  assemble_point _ := assemble_col
  isFiniteDerivative_slope := all_isFinite_table
  solveLinear_slope ht hA := exists_isOnlySolution ht hA _
  norm_point_zero := by
    show Norm.scaled Norm.shortSum (Vector.ofFn 0).toList = 0
    rw [Vector.toList_ofFn]
    exact Norm.scaled_eq_zero _ (by simp)
  norm_point_spec v := by
    show 0 ≤ Norm.scaled Norm.shortSum (Vector.ofFn v).toList
      ∧ Norm.scaled Norm.shortSum (Vector.ofFn v).toList ^ 2 = _
    rw [Vector.toList_ofFn, ← sum_map_sq]
    exact Norm.scaled_spec Norm.shortSum_eq _

/-- Lists of any length, those of length `n` among them. -/
def column : Coordinates (Array K) K (Jacobian K) n where
  point v := (Vector.ofFn v).toArray
  slope A := ⟨n, n, A⟩
  dimension_point v := (Vector.ofFn v).size_toArray
  isFinite_point v := by
    show (Vector.ofFn v).toArray.all (fun _ => true) = true
    exact Array.all_eq_true.mpr fun _ _ => rfl
  perturbed_point v i h := by
    show Column.perturbed _ _ _ = _
    rw [Column.perturbed_toArray, perturbed_ofFn]
    rfl
  scaled_point v a := congrArg Vector.toArray (map_mul_ofFn v a)
  divided_point v a := congrArg Vector.toArray (map_div_ofFn v a)
  difference_point v w := by
    show Column.difference _ _ = _
    rw [Column.difference_toArray, zipWith_sub_ofFn]
  assemble_point v A := Column.assemble_col (Vector.ofFn v).size_toArray A
  isFiniteDerivative_slope := all_isFinite_table
  solveLinear_slope ht hA := by
    obtain ⟨d, hd, hsolve⟩ := exists_isOnlySolution ht hA _
    refine ⟨d, hd, ?_⟩
    rw [solveLinear_toArray, hsolve]
    rfl
  norm_point_zero := by
    show Norm.scaled Norm.interleavedSum (Vector.ofFn 0).toList = 0
    rw [Vector.toList_ofFn]
    exact Norm.scaled_eq_zero _ (by simp)
  norm_point_spec v := by
    show 0 ≤ Norm.scaled Norm.interleavedSum (Vector.ofFn v).toList
      ∧ Norm.scaled Norm.interleavedSum (Vector.ofFn v).toList ^ 2 = _
    rw [Vector.toList_ofFn, ← sum_map_sq]
    exact Norm.scaled_spec Norm.interleavedSum_eq _

/-- Numbers. -/
def number : Coordinates K K K 1 where
  point v := v 0
  slope A := A.entry 0 0
  dimension_point _ := rfl
  isFinite_point _ := rfl
  perturbed_point v i h := by
    obtain rfl : i = 0 := Subsingleton.elim i 0
    show Except.ok (v 0 + h) = .ok (v 0 + (Pi.single 0 h : Fin 1 → K) 0)
    rw [Pi.single_eq_same]
  scaled_point v a := mul_comm (v 0) a
  divided_point v a := div_eq_inv_mul (v 0) a
  difference_point _ _ := rfl
  assemble_point _ _ := by
    simp only [List.finRange_succ, List.finRange_zero, List.map_nil, List.map_cons]
    rfl
  isFiniteDerivative_slope _ := rfl
  solveLinear_slope ht hA := by
    have hentry := hA 0
    rw [Scalar.abs_pivot] at hentry
    exact Scalar.exists_isOnlySolution ht hentry _
  norm_point_zero := abs_zero
  norm_point_spec v := by
    rw [Fin.sum_univ_one]
    exact ⟨abs_nonneg _, sq_abs _⟩

/-! ### Norms -/

variable {X J : Type} [PointSpace X K J] (c : Coordinates X K J n) [ExactRoots K]

/-- A factor that is not negative comes out of the norm. -/
theorem norm_point_smul {a : K} (ha : 0 ≤ a) (v : Fin n → K) :
    norm (c.point (a • v)) = a * norm (c.point v) := by
  obtain ⟨hnonneg, hsquare⟩ := c.norm_point_spec v
  obtain ⟨hnonneg', hsquare'⟩ := c.norm_point_spec (a • v)
  -- numbers that are not negative are equal if their squares are
  refine (sq_eq_sq₀ hnonneg' (mul_nonneg ha hnonneg)).mp ?_
  rw [hsquare', mul_pow, hsquare, Finset.mul_sum]
  exact Finset.sum_congr rfl fun i _ => mul_pow a (v i) 2

theorem norm_point_neg (v : Fin n → K) : norm (c.point (-v)) = norm (c.point v) := by
  obtain ⟨hnonneg, hsquare⟩ := c.norm_point_spec v
  obtain ⟨hnonneg', hsquare'⟩ := c.norm_point_spec (-v)
  refine (sq_eq_sq₀ hnonneg' hnonneg).mp ?_
  rw [hsquare', hsquare]
  exact Finset.sum_congr rfl fun i _ => neg_sq (v i)

/-- The triangle inequality, from that of Cauchy and Schwarz. -/
theorem norm_point_add_le (v w : Fin n → K) :
    norm (c.point (v + w)) ≤ norm (c.point v) + norm (c.point w) := by
  obtain ⟨hv, hsquare⟩ := c.norm_point_spec v
  obtain ⟨hw, hsquare'⟩ := c.norm_point_spec w
  have hproduct : ∑ i, v i * w i ≤ norm (c.point v) * norm (c.point w) := by
    refine le_of_sq_le_sq ?_ (mul_nonneg hv hw)
    rw [mul_pow, hsquare, hsquare']
    exact Finset.sum_mul_sq_le_sq_mul_sq Finset.univ v w
  -- the squares are compared, since the norm is known by its square only
  refine le_of_sq_le_sq ?_ (add_nonneg hv hw)
  calc norm (c.point (v + w)) ^ 2
      = ∑ i, (v i ^ 2 + 2 * (v i * w i) + w i ^ 2) := by
        rw [(c.norm_point_spec (v + w)).2]
        refine Finset.sum_congr rfl fun i _ => ?_
        rw [Pi.add_apply, add_sq, mul_assoc]
    _ = norm (c.point v) ^ 2 + 2 * ∑ i, v i * w i + norm (c.point w) ^ 2 := by
        rw [Finset.sum_add_distrib, Finset.sum_add_distrib, ← Finset.mul_sum, hsquare, hsquare']
    _ ≤ norm (c.point v) ^ 2 + 2 * (norm (c.point v) * norm (c.point w))
          + norm (c.point w) ^ 2 := by
        gcongr
    _ = (norm (c.point v) + norm (c.point w)) ^ 2 := by
        rw [add_sq, mul_assoc]

/-- Only the zero vector has the norm zero. -/
theorem norm_point_eq_zero_iff {v : Fin n → K} : norm (c.point v) = 0 ↔ v = 0 := by
  constructor
  · intro hzero
    have hsquare := (c.norm_point_spec v).2
    -- a sum of squares is zero only if each of them is
    rw [hzero, zero_pow two_ne_zero, eq_comm,
      Finset.sum_eq_zero_iff_of_nonneg fun i _ => sq_nonneg (v i)] at hsquare
    exact funext fun i => pow_eq_zero_iff two_ne_zero |>.mp (hsquare i (Finset.mem_univ i))
  · rintro rfl
    exact c.norm_point_zero

end Coordinates

end NewtonMethod
