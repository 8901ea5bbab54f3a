/-
NewtonMethod/Proofs/LinearSolve.lean

Solving a linear system by elimination.

Both spaces of lists solve with the same elimination, the one of lists of any
length after a check of the sizes (`solveLinear_toArray`), so that what is said
here holds in both.  A system is refused for its pivots alone, in any arithmetic
(`solveLinear_eq_singular_iff_or`).  In exact arithmetic this gives two results.

* **An answer is right** (`solveLinear_isOnlySolution`): it solves the system,
  and no other list of numbers does.
* **A refusal is right** (`solveLinear_singular_iff`): the pivots that are
  inspected multiply to the determinant up to its sign, so with tolerance zero
  a system is refused exactly if its determinant is zero, which is to say that
  some list other than zero is mapped to zero; and a system that is solved
  under a tolerance has a determinant beyond its `n`-th power.

The first needs the factorization and both substitutions, the second only the
diagonal of the factorization.  A column that is left alone has a zero pivot
and a zero determinant, so it needs no case of its own in either.
-/
import Mathlib.Algebra.Order.BigOperators.Ring.Finset
import Mathlib.LinearAlgebra.Matrix.ToLinearEquiv
import NewtonMethod.Proofs.Substitution
import NewtonMethod.Space.Column
import NewtonMethod.Space.Fixed

namespace NewtonMethod

open Matrix Factors PointSpace

/-! ### Any arithmetic -/

section AnyArithmetic

variable {α : Type} [Arithmetic α] {n : ℕ}

/-- A square system of matching size is solved alike in both spaces, in any arithmetic. -/
theorem solveLinear_toArray (A : Table α n n) (b : Vector α n) (tolerance : α) :
    solveLinear (⟨n, n, A⟩ : Jacobian α) b.toArray tolerance
      = (solveLinear A b tolerance).map Vector.toArray := by
  obtain ⟨b, hb⟩ := b
  exact dif_pos ⟨rfl, hb.symm⟩

variable {A : Table α n n} {b : Vector α n} {tolerance : α}

theorem solveLinear_toArray_eq_singular :
    solveLinear (⟨n, n, A⟩ : Jacobian α) b.toArray tolerance = .error .singular
      ↔ solveLinear A b tolerance = .error .singular := by
  rw [solveLinear_toArray]
  rcases solveLinear A b tolerance with e | d <;> simp [Except.map]

theorem isSingular_iff {f : Factors α n} :
    f.isSingular tolerance = true
      ↔ ∃ i, Arithmetic.le (Arithmetic.abs (f.table.entry i i)) tolerance = true := by
  simp [isSingular, pivots]

/-- There are two reasons to refuse a system as singular: the test of its pivots, and a pivot that
counts as zero. -/
theorem solveLinear_eq_singular_iff_or :
    solveLinear A b tolerance = .error .singular
      ↔ (ofTable A).isSingular tolerance = true
        ∨ ∃ i, Arithmetic.isZero ((ofTable A).table.entry i i) = true := by
  -- the substitution has no answer exactly if it meets a zero on the diagonal
  have hstops : (ofTable A).solve b = none
      ↔ ∃ i, Arithmetic.isZero ((ofTable A).table.entry i i) = true := by
    rw [← Option.not_isSome_iff_eq_none, Option.isSome_iff_exists]
    show (¬∃ d, backward _ _ = some d) ↔ _
    rw [exists_backward_iff]
    simp
  show Table.solve A b tolerance = .error .singular ↔ _
  rw [← hstops, Table.solve]
  rcases (ofTable A).isSingular tolerance with - | -
  · rcases (ofTable A).solve b with - | d <;> simp
  · simp

end AnyArithmetic

variable {K : Type} [Field K] [LinearOrder K] [ElementaryFunctions K] {n : ℕ}

theorem solveLinear_toArray_eq_ok {A : Table K n n} {b : Vector K n} {tolerance : K}
    {d : Array K} :
    solveLinear (⟨n, n, A⟩ : Jacobian K) b.toArray tolerance = .ok d
      ↔ ∃ h : d.size = n, solveLinear A b tolerance = .ok ⟨d, h⟩ := by
  rw [solveLinear_toArray]
  rcases solveLinear A b tolerance with e | v
  · simp [Except.map]
  · constructor
    · intro h
      obtain rfl : v.toArray = d := Except.ok.inj h
      exact ⟨v.size_toArray, rfl⟩
    · rintro ⟨h, hv⟩
      rw [Except.ok.inj hv]
      rfl

/-! ### Pivots -/

/-- The tolerance is exceeded by all pivots or the system counts as singular. -/
theorem isSingular_eq_false_iff {f : Factors K n} {tolerance : K} :
    f.isSingular tolerance = false ↔ ∀ i, tolerance < |f.table.entry i i| := by
  simp [isSingular, pivots, ← Bool.not_eq_true]

/-- An answer is that of the substitutions, once the pivots have passed the test. -/
theorem solveLinear_eq_ok_iff {A : Table K n n} {b d : Vector K n} {tolerance : K} :
    solveLinear A b tolerance = .ok d
      ↔ (∀ i, tolerance < |(ofTable A).table.entry i i|) ∧ (ofTable A).solve b = some d := by
  rw [← isSingular_eq_false_iff]
  show Table.solve A b tolerance = .ok d ↔ _
  rw [Table.solve]
  rcases (ofTable A).isSingular tolerance with - | -
  · rcases (ofTable A).solve b with - | e <;> simp
  · simp

variable [IsStrictOrderedRing K]

/-- With a tolerance that is not negative, only the pivots decide whether there is an answer. -/
theorem solveLinear_eq_singular_iff {A : Table K n n} {b : Vector K n} {tolerance : K}
    (ht : 0 ≤ tolerance) :
    solveLinear A b tolerance = .error .singular
      ↔ ∃ i, |(ofTable A).table.entry i i| ≤ tolerance := by
  rw [solveLinear_eq_singular_iff_or, isSingular_iff]
  constructor
  · rintro (⟨i, hi⟩ | ⟨i, hi⟩)
    · exact ⟨i, Exact.le_iff.mp hi⟩
    · -- a pivot of zero is refused by the test already
      refine ⟨i, ?_⟩
      rw [Exact.isZero_iff.mp hi, abs_zero]
      exact ht
  · rintro ⟨i, hi⟩
    exact .inl ⟨i, Exact.le_iff.mpr hi⟩

/-- The product of the pivots is the determinant or its negative. -/
theorem prod_pivots_eq_or (A : Table K n n) :
    (ofTable A).pivots.prod = A.toMatrix.det ∨ (ofTable A).pivots.prod = -A.toMatrix.det := by
  rw [prod_pivots]
  rcases Int.units_eq_one_or (Equiv.Perm.sign (ofTable A).exchange) with h | h <;> simp [h]

/-- The magnitude of the determinant is the product of those of the pivots. -/
theorem abs_det_eq_prod (A : Table K n n) :
    |A.toMatrix.det| = ∏ i, |(ofTable A).table.entry i i| := by
  have hprod : (ofTable A).pivots.prod = ∏ i, (ofTable A).table.entry i i := by
    rw [pivots, Fin.prod_univ_def]
  rw [← Finset.abs_prod, ← hprod]
  rcases prod_pivots_eq_or A with h | h
  · rw [h]
  · rw [h, abs_neg]

theorem det_eq_zero_iff (A : Table K n n) :
    A.toMatrix.det = 0 ↔ ∃ i, (ofTable A).table.entry i i = 0 := by
  rw [← abs_eq_zero, abs_det_eq_prod, Finset.prod_eq_zero_iff]
  simp

/-! ### Answers -/

/-- `d` solves the system, and nothing else does. -/
structure IsOnlySolution (A : Matrix (Fin n) (Fin n) K) (b d : Fin n → K) : Prop where
  solves : A *ᵥ d = b
  unique : ∀ e, A *ᵥ e = b → e = d

/-- An answer solves the system, and there is no other, since the determinant is not zero. -/
theorem isOnlySolution_of_solveLinear {A : Table K n n} {b d : Vector K n} {tolerance : K}
    (h : solveLinear A b tolerance = .ok d) : IsOnlySolution A.toMatrix b.get d.get := by
  obtain ⟨-, hsolve⟩ := solveLinear_eq_ok_iff.mp h
  have hd : A.toMatrix *ᵥ d.get = b.get := mulVec_solve (splits_ofTable A) hsolve
  refine ⟨hd, fun e he => ?_⟩
  -- the back substitution has divided by every pivot
  have hdet : A.toMatrix.det ≠ 0 := by
    intro h0
    obtain ⟨i, hi⟩ := (det_eq_zero_iff A).mp h0
    exact exists_backward_eq_some_iff.mp ⟨d, hsolve⟩ i hi
  -- the difference of two solutions is mapped to zero
  have hdiff : A.toMatrix *ᵥ (e - d.get) = 0 := by
    rw [Matrix.mulVec_sub, he, hd, sub_self]
  exact sub_eq_zero.mp (Matrix.eq_zero_of_mulVec_eq_zero hdet hdiff)

/-- **An answer is right.**  In both spaces of lists, a vector that the linear solve returns is a
solution of the system and its only one, whatever the tolerance. -/
theorem solveLinear_isOnlySolution (A : Table K n n) (b : Vector K n) (tolerance : K) :
    (∀ d : Vector K n, solveLinear A b tolerance = .ok d →
      IsOnlySolution A.toMatrix b.get d.get) ∧
    (∀ d : Array K, solveLinear (⟨n, n, A⟩ : Jacobian K) b.toArray tolerance = .ok d →
      ∃ h : d.size = n, IsOnlySolution A.toMatrix b.get (Vector.get ⟨d, h⟩)) := by
  refine ⟨fun d => isOnlySolution_of_solveLinear, fun d hd => ?_⟩
  obtain ⟨h, hv⟩ := solveLinear_toArray_eq_ok.mp hd
  exact ⟨h, isOnlySolution_of_solveLinear hv⟩

/-- A table for which elimination exchanges rows twice. -/
def exchanging : Table ℚ 3 3 := #v[#v[0, 1, 2], #v[1, 0, 1], #v[2, 1, 0]]

/-- A system that is solved in both spaces, after two exchanges of rows. -/
theorem solveLinear_isOnlySolution_exchanging :
    let b : Vector ℚ 3 := #v[8, 4, 4]
    let d : Vector ℚ 3 := #v[1, 2, 3]
    solveLinear exchanging b 0 = .ok d ∧ IsOnlySolution exchanging.toMatrix b.get d.get
      ∧ solveLinear (⟨3, 3, exchanging⟩ : Jacobian ℚ) b.toArray 0 = .ok d.toArray
      ∧ ∃ h, IsOnlySolution exchanging.toMatrix b.get (Vector.get ⟨d.toArray, h⟩) := by
  intro b d
  have hfixed : solveLinear exchanging b 0 = .ok d := by decide +kernel
  have hcolumn : solveLinear (⟨3, 3, exchanging⟩ : Jacobian ℚ) b.toArray 0
      = .ok d.toArray := by decide +kernel
  obtain ⟨hf, hc⟩ := solveLinear_isOnlySolution exchanging b 0
  exact ⟨hfixed, hf d hfixed, hcolumn, hc d.toArray hcolumn⟩

/-! ### Refusals -/

theorem solveLinear_zero_eq_singular_iff (A : Table K n n) (b : Vector K n) :
    solveLinear A b 0 = .error .singular ↔ A.toMatrix.det = 0 := by
  rw [solveLinear_eq_singular_iff le_rfl, det_eq_zero_iff]
  simp

theorem pow_lt_abs_det {A : Table K n n} (hn : 0 < n) {b d : Vector K n} {tolerance : K}
    (ht : 0 ≤ tolerance) (h : solveLinear A b tolerance = .ok d) :
    tolerance ^ n < |A.toMatrix.det| := by
  obtain ⟨hpivots, -⟩ := solveLinear_eq_ok_iff.mp h
  have hpos : ∀ i, 0 < |(ofTable A).table.entry i i| := fun i => ht.trans_lt (hpivots i)
  rw [abs_det_eq_prod]
  -- a product is only strictly monotone in factors that are positive
  rcases ht.eq_or_lt with rfl | ht
  · rw [zero_pow hn.ne']
    exact Finset.prod_pos fun i _ => hpos i
  · calc tolerance ^ n = ∏ _i : Fin n, tolerance := by simp
      _ < ∏ i, |(ofTable A).table.entry i i| := by
          refine Finset.prod_lt_prod_of_nonempty (fun _ _ => ht) (fun i _ => hpivots i) ?_
          exact ⟨⟨0, hn⟩, Finset.mem_univ _⟩

/-- **A refusal is right.**  The pivots multiply to the determinant up to its sign.  So with
tolerance zero a system is refused exactly if its determinant is zero, or some vector other than
zero is mapped to zero, and one that is solved has a determinant beyond the `n`-th power of the
tolerance. -/
theorem solveLinear_singular_iff (hn : 0 < n) (A : Table K n n) :
    ((ofTable A).pivots.prod = A.toMatrix.det ∨ (ofTable A).pivots.prod = -A.toMatrix.det) ∧
    (∀ b : Vector K n,
      (solveLinear A b 0 = .error .singular ↔ A.toMatrix.det = 0) ∧
      (solveLinear (⟨n, n, A⟩ : Jacobian K) b.toArray 0 = .error .singular
        ↔ A.toMatrix.det = 0)) ∧
    (A.toMatrix.det = 0 ↔ ∃ v, v ≠ 0 ∧ A.toMatrix *ᵥ v = 0) ∧
    (∀ (b : Vector K n) (tolerance : K), 0 ≤ tolerance →
      (∀ d : Vector K n, solveLinear A b tolerance = .ok d →
        tolerance ^ n < |A.toMatrix.det|) ∧
      (∀ d : Array K, solveLinear (⟨n, n, A⟩ : Jacobian K) b.toArray tolerance = .ok d →
        tolerance ^ n < |A.toMatrix.det|)) := by
  refine ⟨prod_pivots_eq_or A, fun b => ⟨?_, ?_⟩, ?_, fun b tolerance ht => ⟨?_, ?_⟩⟩
  · exact solveLinear_zero_eq_singular_iff A b
  · rw [solveLinear_toArray_eq_singular, solveLinear_zero_eq_singular_iff]
  · exact Matrix.exists_mulVec_eq_zero_iff.symm
  · exact fun d hd => pow_lt_abs_det hn ht hd
  · intro d hd
    obtain ⟨h, hv⟩ := solveLinear_toArray_eq_ok.mp hd
    exact pow_lt_abs_det hn ht hv

/-- A table whose first column elimination leaves alone. -/
def skipping : Table ℚ 3 3 := #v[#v[0, 1, 2], #v[0, 3, 1], #v[0, 1, 5]]

/-- The skipped column makes the determinant zero; the other table has pivots beyond one half. -/
theorem solveLinear_singular_iff_skipping :
    let b : Vector ℚ 3 := #v[8, 4, 4]
    let d : Vector ℚ 3 := #v[1, 2, 3]
    0 < 3 ∧ solveLinear skipping b 0 = .error .singular ∧ skipping.toMatrix.det = 0
      ∧ (∃ v, v ≠ 0 ∧ skipping.toMatrix *ᵥ v = 0)
      ∧ (0 : ℚ) ≤ 1 / 2 ∧ solveLinear exchanging b (1 / 2) = .ok d
      ∧ (1 / 2) ^ 3 < |exchanging.toMatrix.det| := by
  intro b d
  have hn : 0 < 3 := by decide
  have hskip : solveLinear skipping b 0 = .error .singular := by decide +kernel
  have hhalf : (0 : ℚ) ≤ 1 / 2 := by decide +kernel
  have hsolve : solveLinear exchanging b (1 / 2) = .ok d := by decide +kernel
  obtain ⟨-, hrefused, hkernel, -⟩ := solveLinear_singular_iff hn skipping
  obtain ⟨-, -, -, hpower⟩ := solveLinear_singular_iff hn exchanging
  have hdet : skipping.toMatrix.det = 0 := (hrefused b).1.mp hskip
  exact ⟨hn, hskip, hdet, hkernel.mp hdet, hhalf, hsolve, (hpower b (1 / 2) hhalf).1 d hsolve⟩

end NewtonMethod
