/-
NewtonMethod/Proofs/Factorization.lean

What elimination computes: a factorization.

Let `t` be the table of an elimination when the first `i` columns are done.  It
holds two triangular matrices at once,

    lower t i    ones on the diagonal, the multipliers below it in columns < i
    upper t i    the other entries, with zeros for those multipliers

and the exchanges made so far are a permutation of the rows, `Factors.exchange`.
`Factors.Splits A i f` says that the rows of `A` in the exchanged order are the
product of the two.  It holds at the start, since `lower t 0 = 1` and
`upper t 0` is the table, and one column preserves it (`Splits.eliminate`):

* an exchange of rows `i` and `p ≥ i` permutes both factors alike, because the
  multipliers move with their rows;
* clearing a column multiplies the right factor by a shear from the left and
  the left factor by the opposite shear from the right;
* a column that is left alone has only zeros from its diagonal entry on, since
  the largest of them is zero, so it is clear already.

Hence the factorization of a table when all columns are done (`splits_ofTable`),
and the product of the pivots is the determinant up to the sign of the
permutation (`prod_pivots`).
-/
import Mathlib.LinearAlgebra.Matrix.Block
import NewtonMethod.Elimination
import NewtonMethod.Proofs.Exact
import NewtonMethod.Proofs.Sweep

namespace NewtonMethod

open Matrix Factors

variable {K : Type} {n : ℕ}

/-- A table as a matrix. -/
def Table.toMatrix {m : ℕ} (t : Table K m n) : Matrix (Fin m) (Fin n) K := Matrix.of t.entry

@[simp] theorem Table.toMatrix_apply {m : ℕ} (t : Table K m n) (r : Fin m) (c : Fin n) :
    t.toMatrix r c = t.entry r c := rfl

theorem get_ofFn (f : Fin n → K) (i : Fin n) : (Vector.ofFn f).get i = f i :=
  Vector.getElem_ofFn i.isLt

/-! ### Exchanges -/

/-- The index of an exchanged row is its image under the transposition of the two rows. -/
theorem Table.exchanged_eq_swap (i p k : Fin n) : Table.exchanged i p k = Equiv.swap i p k := by
  rw [Table.exchanged, Equiv.swap_apply_def]

@[simp] theorem Table.entry_swapRows (t : Table K n n) (i p r c : Fin n) :
    (t.swapRows i p).entry r c = t.entry (Equiv.swap i p r) c := by
  rw [Table.swapRows, Table.entry_ofFn, Table.exchanged_eq_swap]

theorem Table.get_swapEntries (b : Vector K n) (i p k : Fin n) :
    (Table.swapEntries b i p).get k = b.get (Equiv.swap i p k) := by
  rw [Table.swapEntries, get_ofFn, ← Table.exchanged_eq_swap]
  rfl

/-- The permutation of the rows that the recorded exchanges make. -/
def Factors.exchange (f : Factors K n) : Equiv.Perm (Fin n) :=
  (f.swaps.map fun s => Equiv.swap s.1 s.2).prod

/-- An exchange recorded last multiplies the permutation from the right. -/
theorem Factors.exchange_append (t t' : Table K n n) (swaps : List (Fin n × Fin n)) (i p : Fin n) :
    exchange ⟨t', swaps ++ [(i, p)]⟩ = exchange ⟨t, swaps⟩ * Equiv.swap i p := by
  simp [exchange]

/-- The right-hand side is put into the order of the exchanged rows. -/
theorem Factors.get_permute (f : Factors K n) (b : Vector K n) (k : Fin n) :
    (f.permute b).get k = b.get (f.exchange k) := by
  obtain ⟨t, swaps⟩ := f
  show (swaps.foldl _ b).get k = b.get ((swaps.map fun s => Equiv.swap s.1 s.2).prod k)
  induction swaps generalizing b with
  | nil => rfl
  | cons s swaps ih =>
    -- the exchange that is made first is applied to the index last
    rw [List.foldl_cons, ih, List.map_cons, List.prod_cons, Equiv.Perm.mul_apply]
    exact Table.get_swapEntries b s.1 s.2 _

section Ring

variable [CommRing K]

/-! ### The two triangular factors -/

/-- The left factor when `i` columns are done. -/
def lower (t : Table K n n) (i : ℕ) : Matrix (Fin n) (Fin n) K :=
  Matrix.of fun r c => if c = r then 1 else if c < r ∧ c.val < i then t.entry r c else 0

/-- The right factor when `i` columns are done. -/
def upper (t : Table K n n) (i : ℕ) : Matrix (Fin n) (Fin n) K :=
  Matrix.of fun r c => if c < r ∧ c.val < i then 0 else t.entry r c

/-- The multipliers in column `i`. -/
def multipliers (t : Table K n n) (i : Fin n) : Fin n → K :=
  fun r => if i < r then t.entry r i else 0

theorem lower_apply (t : Table K n n) (i : ℕ) (r c : Fin n) :
    lower t i r c = if c = r then 1 else if c < r ∧ c.val < i then t.entry r c else 0 := rfl

theorem upper_apply (t : Table K n n) (i : ℕ) (r c : Fin n) :
    upper t i r c = if c < r ∧ c.val < i then 0 else t.entry r c := rfl

@[simp] theorem lower_zero (t : Table K n n) : lower t 0 = 1 := by
  ext r c
  simp [lower_apply, Matrix.one_apply, eq_comm]

@[simp] theorem upper_zero (t : Table K n n) : upper t 0 = t.toMatrix := by
  ext r c
  simp [upper_apply]

/-- The left factor does not move a column that is zero where columns are done. -/
theorem lower_mulVec_of_zero (t : Table K n n) {i : ℕ} {v : Fin n → K}
    (h : ∀ c : Fin n, c.val < i → v c = 0) : lower t i *ᵥ v = v := by
  ext r
  rw [Matrix.mulVec, dotProduct, Finset.sum_eq_single r]
  · simp [lower_apply]
  · intro c _ hc
    rcases lt_or_ge c.val i with hi | hi
    · rw [h c hi, mul_zero]
    · rw [lower_apply, if_neg hc, if_neg fun hr => hi.not_gt hr.2, zero_mul]
  · simp

/-- One more column done multiplies the left factor by the shear of its multipliers. -/
theorem lower_succ (t : Table K n n) (i : Fin n) :
    lower t (i + 1) = lower t i * shear (multipliers t i) i := by
  have hfix : lower t i *ᵥ multipliers t i = multipliers t i :=
    lower_mulVec_of_zero t fun c hc => if_neg fun h : i < c => absurd hc (not_lt.mpr h.le)
  ext r c
  rw [mul_shear_apply, hfix]
  rcases eq_or_ne c i with rfl | hc
  · -- the new column of multipliers
    simp only [lower_apply, multipliers, Nat.lt_succ_self, lt_irrefl, and_true, and_false,
      if_true, if_false]
    rcases lt_trichotomy c r with h | rfl | h
    · simp [h, h.ne]
    · simp
    · simp [h.ne', h.not_gt]
  · have hval : c.val < i + 1 ↔ c.val < i := by
      have : c.val ≠ i.val := fun h => hc (Fin.ext h)
      omega
    simp [lower_apply, hc, hval]

/-- The left factor has ones on its diagonal, so its determinant is one. -/
theorem det_lower (t : Table K n n) (i : ℕ) : (lower t i).det = 1 := by
  have hlow : (lower t i).IsLowerTriangular := by
    intro r c hrc
    have hrc : r < c := hrc
    simp [lower_apply, hrc.ne', hrc.not_gt]
  rw [Matrix.det_of_isLowerTriangular _ hlow]
  simp [lower_apply]

/-- When all columns are done the determinant of the right factor is the product of the pivots. -/
theorem det_upper (t : Table K n n) : (upper t n).det = ∏ i, t.entry i i := by
  have hup : (upper t n).IsUpperTriangular := by
    intro r c hrc
    have hrc : c < r := hrc
    simp [upper_apply, hrc]
  rw [Matrix.det_of_isUpperTriangular hup]
  simp [upper_apply]

/-! ### An exchange of rows -/

/-- An exchange among the rows from `i` on keeps a row on its side of every earlier column. -/
theorem swap_val_lt_iff {i p : Fin n} (hip : i ≤ p) {k : Fin n} {j : ℕ} (hj : j ≤ i.val) :
    (Equiv.swap i p k).val < j ↔ k.val < j := by
  have hip : i.val ≤ p.val := hip
  rw [Equiv.swap_apply_def]
  split_ifs with hi hp
  · subst hi; omega
  · subst hp; omega
  · rfl

theorem lt_swap_iff {i p : Fin n} (hip : i ≤ p) {k c : Fin n} (hc : c.val < i.val) :
    c < Equiv.swap i p k ↔ c < k := by
  have h := swap_val_lt_iff hip (k := k) (Nat.succ_le_of_lt hc)
  rw [Fin.lt_def, Fin.lt_def]
  omega

theorem swap_of_val_lt {i p : Fin n} (hip : i ≤ p) {k : Fin n} (hk : k.val < i.val) :
    Equiv.swap i p k = k := by
  have hip : i.val ≤ p.val := hip
  refine Equiv.swap_apply_of_ne_of_ne ?_ ?_ <;> rintro rfl <;> omega

/-- The multipliers move with their rows: the left factor is permuted in rows and columns. -/
theorem lower_swapRows (t : Table K n n) {i p : Fin n} (hip : i ≤ p) :
    lower (t.swapRows i p) i = (lower t i).submatrix (Equiv.swap i p) (Equiv.swap i p) := by
  ext r c
  rw [Matrix.submatrix_apply, lower_apply, lower_apply, Table.entry_swapRows]
  simp only [(Equiv.swap i p).injective.eq_iff, swap_val_lt_iff hip le_rfl]
  rcases lt_or_ge c.val i.val with hc | hc
  · -- a column of multipliers stays where it is
    simp only [swap_of_val_lt hip hc, lt_swap_iff hip hc]
  · -- from column `i` on the left factor is the identity
    simp [hc.not_gt]

/-- The right factor is permuted in its rows only. -/
theorem upper_swapRows (t : Table K n n) {i p : Fin n} (hip : i ≤ p) :
    upper (t.swapRows i p) i = (upper t i).submatrix (Equiv.swap i p) id := by
  ext r c
  rw [Matrix.submatrix_apply, upper_apply, upper_apply, Table.entry_swapRows]
  rcases lt_or_ge c.val i.val with hc | hc
  · simp only [id, lt_swap_iff hip hc]
  · simp [hc.not_gt]

/-- An exchange of rows that are not done permutes the product of the factors. -/
theorem lower_mul_upper_swapRows (t : Table K n n) {i p : Fin n} (hip : i ≤ p) :
    lower (t.swapRows i p) i * upper (t.swapRows i p) i
      = (lower t i * upper t i).submatrix (Equiv.swap i p) id := by
  rw [lower_swapRows t hip, upper_swapRows t hip, Matrix.submatrix_mul_equiv]

end Ring

section OrderedField

variable [Field K] [LinearOrder K] [ElementaryFunctions K]

/-! ### Clearing a column -/

theorem entry_clearBelow_of_lt (t : Table K n n) {i r c : Fin n} (hc : c < i) :
    (clearBelow t i).entry r c = t.entry r c := by
  simp [clearBelow, hc.ne, hc.not_gt]

theorem entry_clearBelow_of_le (t : Table K n n) {i r c : Fin n} (hr : r ≤ i) :
    (clearBelow t i).entry r c = t.entry r c := by
  simp [clearBelow, hr.not_gt]

/-- The cleared places hold the quotients by the pivot. -/
theorem multipliers_clearBelow (t : Table K n n) (i r : Fin n) :
    multipliers (clearBelow t i) i r = if i < r then t.entry r i / t.entry i i else 0 := by
  rw [multipliers]
  split
  next h => simp [clearBelow, h, div_eq_mul_inv]
  next => rfl

/-- The multipliers of column `i` are written where the left factor is not looked at yet. -/
theorem lower_clearBelow (t : Table K n n) (i : Fin n) :
    lower (clearBelow t i) i = lower t i := by
  ext r c
  rw [lower_apply, lower_apply]
  split_ifs with h1 h2
  · rfl
  · exact entry_clearBelow_of_lt t h2.2
  · rfl

/-- The cleared column and the rows below it: each row loses its multiple of the pivot row. -/
theorem upper_clearBelow (t : Table K n n) {i : Fin n} (hi : t.entry i i ≠ 0) :
    upper (clearBelow t i) (i + 1)
      = shear (-(multipliers (clearBelow t i) i)) i * upper t i := by
  ext r c
  rw [shear_mul_apply, Pi.neg_apply, multipliers_clearBelow]
  rcases lt_or_ge i r with hr | hr
  · rw [if_pos hr]
    rcases lt_trichotomy c i with hc | rfl | hc
    · -- multipliers of earlier columns, which the right factor leaves out
      have hcr : c < r := hc.trans hr
      have hci : c.val < i + 1 := Nat.lt_succ_of_lt hc
      simp [upper_apply, hcr, hc, hci]
    · -- the cleared column
      have hcc : c.val < c + 1 := Nat.lt_succ_self c
      simp [upper_apply, hr, hi, hcc]
    · -- the rest of the row
      have hci : ¬ c.val < i + 1 := by
        have : i.val < c.val := hc
        omega
      have hci' : ¬ c.val < i.val := fun h => hc.not_gt h
      simp only [upper_apply, hci, hci', and_false, if_false]
      simp only [clearBelow, Table.entry_ofFn, hr, hc.ne', hc, if_true, if_false]
      ring
  · -- rows down to the pivot row lose nothing, and of column `i` they have nothing below the
    -- diagonal
    rw [if_neg hr.not_gt, neg_zero, zero_mul, add_zero, upper_apply, upper_apply,
      entry_clearBelow_of_le t hr]
    have hval : c < r ∧ c.val < i + 1 ↔ c < r ∧ c.val < i := by
      have : r.val ≤ i.val := hr
      rw [Fin.lt_def]
      omega
    simp only [hval]

/-- Clearing a column changes both factors, but not their product. -/
theorem lower_mul_upper_clearBelow (t : Table K n n) {i : Fin n} (hi : t.entry i i ≠ 0) :
    lower (clearBelow t i) (i + 1) * upper (clearBelow t i) (i + 1) = lower t i * upper t i := by
  have hself : multipliers (clearBelow t i) i i = 0 := if_neg (lt_irrefl i)
  rw [lower_succ, upper_clearBelow t hi, Matrix.mul_assoc, ← Matrix.mul_assoc (shear _ i),
    shear_mul_shear_neg hself, Matrix.one_mul, lower_clearBelow]

/-- A column that is zero from its diagonal entry on counts as cleared. -/
theorem lower_mul_upper_of_zero (t : Table K n n) {i : Fin n}
    (h : ∀ k, i ≤ k → t.entry k i = 0) :
    lower t (i + 1) * upper t (i + 1) = lower t i * upper t i := by
  -- its multipliers are zero, so the shear that they make is the identity
  have hlow : lower t (i + 1) = lower t i := by
    have hm : multipliers t i = 0 := by
      funext k
      rw [multipliers]
      split
      next hk => exact h k hk.le
      next => rfl
    rw [lower_succ, hm, shear, Matrix.zero_vecMulVec, add_zero, Matrix.mul_one]
  -- what the right factor now leaves out of column `i` was zero before
  have hup : upper t (i + 1) = upper t i := by
    ext r c
    rw [upper_apply, upper_apply]
    rcases eq_or_ne c i with rfl | hc
    · split_ifs with h1 h2 h2
      · rfl
      · exact (h r h1.1.le).symm
      · exact absurd ⟨h2.1, Nat.lt_succ_of_lt h2.2⟩ h1
      · rfl
    · have hval : c.val < i + 1 ↔ c.val < i := by
        have : c.val ≠ i.val := fun h => hc (Fin.ext h)
        omega
      simp only [hval]
  rw [hlow, hup]

/-! ### The search for a pivot -/

/-- A search that keeps the best candidate so far finds one that no other exceeds. -/
theorem foldl_best (w : Fin n → K) (l : List (Fin n)) (b : Fin n) :
    let q := l.foldl (fun best k => if Arithmetic.lt (w best) (w k) then k else best) b
    (q = b ∨ q ∈ l) ∧ w b ≤ w q ∧ ∀ k ∈ l, w k ≤ w q := by
  induction l generalizing b with
  | nil => simp
  | cons a l ih =>
    rw [List.foldl_cons]
    -- either the first candidate is better than `b` and takes its place, or it is dropped
    by_cases hab : w b < w a
    · rw [if_pos (Exact.lt_iff.mpr hab)]
      obtain ⟨hmem, hle, hall⟩ := ih a
      refine ⟨Or.inr ?_, hab.le.trans hle, ?_⟩
      · rcases hmem with h | h
        · rw [h]; exact List.mem_cons_self
        · exact List.mem_cons_of_mem a h
      · exact List.forall_mem_cons.mpr ⟨hle, hall⟩
    · rw [if_neg (mt Exact.lt_iff.mp hab)]
      obtain ⟨hmem, hle, hall⟩ := ih b
      refine ⟨hmem.imp_right (List.mem_cons_of_mem a), hle, ?_⟩
      exact List.forall_mem_cons.mpr ⟨(not_lt.mp hab).trans hle, hall⟩

/-- The pivot row is not above the diagonal, and no entry of the column from there on is larger. -/
theorem pivotRow_spec (t : Table K n n) (i : Fin n) :
    i ≤ pivotRow t i ∧ ∀ k, i ≤ k → |t.entry k i| ≤ |t.entry (pivotRow t i) i| := by
  obtain ⟨hmem, hle, hall⟩ :=
    foldl_best (fun k => |t.entry k i|) ((List.finRange n).filter fun k => i < k) i
  refine ⟨?_, fun k hk => ?_⟩
  · rcases hmem with h | h
    · exact h.ge
    · exact (of_decide_eq_true (List.mem_filter.mp h).2).le
  · rcases hk.eq_or_lt with rfl | hk
    · exact hle
    · exact hall k (List.mem_filter.mpr ⟨List.mem_finRange k, decide_eq_true hk⟩)

/-! ### The factorization -/

/-- The rows of `A`, exchanged as recorded, are the product of the two factors of which `i`
columns are done. -/
def Factors.Splits (A : Matrix (Fin n) (Fin n) K) (i : ℕ) (f : Factors K n) : Prop :=
  A.submatrix f.exchange id = lower f.table i * upper f.table i

theorem splits_start (t : Table K n n) : Splits t.toMatrix 0 ⟨t, []⟩ := by
  rw [Splits, lower_zero, upper_zero, Matrix.one_mul]
  rfl

variable [IsStrictOrderedRing K]

/-- One column of the elimination preserves the factorization. -/
theorem Factors.Splits.eliminate {A : Matrix (Fin n) (Fin n) K} {f : Factors K n} {i : Fin n}
    (h : Splits A i f) : Splits A (i + 1) (f.eliminate i) := by
  obtain ⟨hip, hmax⟩ := pivotRow_spec f.table i
  rw [Factors.eliminate]
  by_cases hp : f.table.entry (pivotRow f.table i) i = 0
  · -- the largest entry is zero, so the column is clear
    rw [if_pos (Exact.isZero_iff.mpr hp)]
    have hzero : ∀ k, i ≤ k → f.table.entry k i = 0 := by
      intro k hk
      have := hmax k hk
      rw [hp, abs_zero] at this
      exact abs_nonpos_iff.mp this
    rw [Splits, lower_mul_upper_of_zero f.table hzero]
    exact h
  · -- the exchange permutes the product of the factors, and clearing then preserves it
    rw [if_neg (mt Exact.isZero_iff.mp hp)]
    have hi : (f.table.swapRows i (pivotRow f.table i)).entry i i ≠ 0 := by
      rwa [Table.entry_swapRows, Equiv.swap_apply_left]
    have hA : A.submatrix f.exchange id = lower f.table i * upper f.table i := h
    rw [Splits, lower_mul_upper_clearBelow _ hi, lower_mul_upper_swapRows f.table hip, ← hA,
      exchange_append f.table, Matrix.submatrix_submatrix]
    rfl

/-- **Elimination factorizes.**  The rows of a table, in the order that the exchanges make, are
the product of the two triangular factors that are left. -/
theorem splits_ofTable (t : Table K n n) : Splits t.toMatrix n (ofTable t) :=
  foldl_finRange_invariant (Splits t.toMatrix) (splits_start t) fun _ _ h => h.eliminate

/-- The product of the pivots is the determinant, up to the sign of the exchanges. -/
theorem prod_pivots (t : Table K n n) :
    (ofTable t).pivots.prod = Equiv.Perm.sign (ofTable t).exchange * t.toMatrix.det := by
  have h : (t.toMatrix.submatrix (ofTable t).exchange id).det
      = (lower (ofTable t).table n * upper (ofTable t).table n).det :=
    congrArg Matrix.det (splits_ofTable t)
  -- the left factor drops out, and the right one leaves the pivots
  rw [Matrix.det_permute, Matrix.det_mul, det_lower, det_upper, one_mul] at h
  rw [h, pivots, Fin.prod_univ_def]

end OrderedField

end NewtonMethod
