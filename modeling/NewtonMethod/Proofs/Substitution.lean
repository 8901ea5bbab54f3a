/-
NewtonMethod/Proofs/Substitution.lean

The two substitutions solve with the two triangular factors of an elimination.

One column of either substitution undoes one shear of its factor, so what is
left to solve is always the same right-hand side seen through one column less:

    forward     lower t (i + 1) *ᵥ b'  =  lower t i *ᵥ b
    backward    upperFrom t i *ᵥ b'    =  upperFrom t (i + 1) *ᵥ b

where `upperFrom t i` has the columns of the right factor from `i` on and those
of the identity before.  A column with a zero on its diagonal has no quotient
and stops the backward substitution, and nothing else does
(`exists_backward_eq_some_iff`).

Together with the factorization this gives the solution of the whole system,
`mulVec_solve`.
-/
import Mathlib.Tactic.LinearCombination
import NewtonMethod.Proofs.Factorization

namespace NewtonMethod

open Matrix Factors

/-! ### Where the backward substitution stops -/

section AnyArithmetic

variable {α : Type} [Arithmetic α] {n : ℕ} {t : Table α n n}

theorem exists_backwardStep_iff {b : Vector α n} {i : Fin n} :
    (∃ b', backwardStep t b i = some b') ↔ Arithmetic.isZero (t.entry i i) = false := by
  rw [backwardStep]
  rcases Arithmetic.isZero (t.entry i i) with - | - <;> simp

/-- If no pivot counts as zero, the substitution gets through any of the columns. -/
theorem exists_foldlM_backwardStep (h : ∀ i, Arithmetic.isZero (t.entry i i) = false)
    (columns : List (Fin n)) (v : Vector α n) :
    ∃ w, columns.foldlM (backwardStep t) v = some w := by
  apply exists_foldlM_eq_some
  intro i _ v
  exact exists_backwardStep_iff.mpr (h i)

/-- In any arithmetic, nothing but a pivot that counts as zero stops the backward substitution. -/
theorem exists_backward_iff {b : Vector α n} :
    (∃ d, backward t b = some d) ↔ ∀ i, Arithmetic.isZero (t.entry i i) = false := by
  constructor
  · rintro ⟨d, h⟩ i
    refine foldlM_reverse_finRange_invariant (fun j (_ : Vector α n) =>
      ∀ i : Fin n, j ≤ i.val → Arithmetic.isZero (t.entry i i) = false) ?_ ?_ h i (Nat.zero_le _)
    · exact fun i hi => absurd i.isLt hi.not_gt
    · intro j v v' hdone hstep i hji
      -- the column of this step, or one that is done
      rcases hji.eq_or_lt with hji | hji
      · rw [← Fin.ext hji]
        exact exists_backwardStep_iff.mp ⟨v', hstep⟩
      · exact hdone i hji
  · intro h
    exact exists_foldlM_backwardStep h (List.finRange n).reverse b

end AnyArithmetic

variable {K : Type} [Field K] [LinearOrder K] [ElementaryFunctions K] {n : ℕ}

/-! ### Forward -/

/-- A forward step is the opposite shear of its multipliers. -/
theorem get_forwardStep (t : Table K n n) (b : Vector K n) (i : Fin n) :
    (forwardStep t b i).get = shear (-(multipliers t i)) i *ᵥ b.get := by
  funext k
  rw [shear_mulVec_apply, forwardStep, get_ofFn, Pi.neg_apply, multipliers]
  split_ifs <;> ring

/-- A forward step takes the multipliers of one column off the left factor. -/
theorem lower_mulVec_forwardStep (t : Table K n n) (b : Vector K n) (i : Fin n) :
    lower t (i + 1) *ᵥ (forwardStep t b i).get = lower t i *ᵥ b.get := by
  have hself : multipliers t i i = 0 := if_neg (lt_irrefl i)
  -- the two shears cancel, as the multipliers leave their own row alone
  rw [lower_succ, get_forwardStep, Matrix.mulVec_mulVec, Matrix.mul_assoc,
    shear_mul_shear_neg hself, Matrix.mul_one]

/-- Forward substitution solves with the multipliers. -/
theorem lower_mulVec_forward (t : Table K n n) (b : Vector K n) :
    lower t n *ᵥ (forward t b).get = b.get := by
  refine foldl_finRange_invariant (fun i (v : Vector K n) => lower t i *ᵥ v.get = b.get) ?_ ?_
  · rw [lower_zero, Matrix.one_mulVec]
  · intro i v hv
    rw [lower_mulVec_forwardStep, hv]

/-! ### Backward -/

/-- The columns of the right factor from `i` on, and the identity before. -/
def upperFrom (t : Table K n n) (i : ℕ) : Matrix (Fin n) (Fin n) K :=
  Matrix.of fun r c => if i ≤ c.val then upper t n r c else if c = r then 1 else 0

/-- What column `i` of the right factor adds to that of the identity. -/
def columnAbove (t : Table K n n) (i : Fin n) : Fin n → K :=
  fun r => if r = i then t.entry i i - 1 else if r < i then t.entry r i else 0

theorem upperFrom_apply (t : Table K n n) (i : ℕ) (r c : Fin n) :
    upperFrom t i r c = if i ≤ c.val then upper t n r c else if c = r then 1 else 0 := rfl

@[simp] theorem upperFrom_zero (t : Table K n n) : upperFrom t 0 = upper t n := by
  ext r c
  simp [upperFrom_apply]

@[simp] theorem upperFrom_size (t : Table K n n) : upperFrom t n = 1 := by
  ext r c
  simp [upperFrom_apply, c.isLt.not_ge, Matrix.one_apply, eq_comm]

theorem upperFrom_mulVec_of_zero (t : Table K n n) {i : ℕ} {v : Fin n → K}
    (h : ∀ c : Fin n, i ≤ c.val → v c = 0) : upperFrom t i *ᵥ v = v := by
  ext r
  rw [Matrix.mulVec, dotProduct, Finset.sum_eq_single r]
  · rcases lt_or_ge r.val i with hr | hr
    · simp [upperFrom_apply, hr.not_ge]
    · rw [h r hr, mul_zero]
  · intro c _ hc
    rcases lt_or_ge c.val i with hi | hi
    · rw [upperFrom_apply, if_neg hi.not_ge, if_neg hc, zero_mul]
    · rw [h c hi, mul_zero]
  · simp

/-- One column of the right factor is a shear of the identity. -/
theorem upperFrom_succ (t : Table K n n) (i : Fin n) :
    upperFrom t i = upperFrom t (i + 1) * shear (columnAbove t i) i := by
  have hfix : upperFrom t (i + 1) *ᵥ columnAbove t i = columnAbove t i := by
    refine upperFrom_mulVec_of_zero t fun c hc => ?_
    have hic : i < c := hc
    rw [columnAbove, if_neg hic.ne', if_neg hic.not_gt]
  ext r c
  rw [mul_shear_apply, hfix]
  rcases eq_or_ne c i with rfl | hc
  · -- the column that is added
    simp only [upperFrom_apply, columnAbove, upper_apply, le_refl, Nat.not_succ_le_self,
      c.isLt, and_true, if_true, if_false]
    rcases lt_trichotomy r c with h | rfl | h
    · simp [h, h.ne, h.ne', h.not_gt]
    · simp
    · simp [h, h.ne, h.ne', h.not_gt]
  · have hval : i.val + 1 ≤ c.val ↔ i.val ≤ c.val := by
      have : c.val ≠ i.val := fun h => hc (Fin.ext h)
      omega
    simp [upperFrom_apply, hc, hval]

/-- A backward step that has a quotient undoes that shear. -/
theorem backwardStep_eq_some {t : Table K n n} {b b' : Vector K n} {i : Fin n}
    (h : backwardStep t b i = some b') :
    t.entry i i ≠ 0 ∧ shear (columnAbove t i) i *ᵥ b'.get = b.get := by
  rw [backwardStep] at h
  by_cases hi : t.entry i i = 0
  · rw [if_pos (Exact.isZero_iff.mpr hi)] at h
    cases h
  · rw [if_neg (mt Exact.isZero_iff.mp hi)] at h
    obtain rfl := Option.some.inj h
    refine ⟨hi, funext fun k => ?_⟩
    rw [shear_mulVec_apply, get_ofFn, get_ofFn, if_pos rfl, columnAbove]
    have hquot : b.get i / t.entry i i * t.entry i i = b.get i := div_mul_cancel₀ _ hi
    -- the entry of the quotient, those above it, and those below it
    split_ifs with hk hki
    · subst hk
      linear_combination hquot
    · ring
    · ring

/-- Backward substitution solves with the rows that are left. -/
theorem upper_mulVec_backward {t : Table K n n} {b d : Vector K n} (h : backward t b = some d) :
    upper t n *ᵥ d.get = b.get := by
  rw [← upperFrom_zero]
  refine foldlM_reverse_finRange_invariant
    (fun i (v : Vector K n) => upperFrom t i *ᵥ v.get = b.get) ?_ ?_ h
  · rw [upperFrom_size, Matrix.one_mulVec]
  · intro i v v' hv hstep
    rw [upperFrom_succ, ← Matrix.mulVec_mulVec, (backwardStep_eq_some hstep).2, hv]

/-- Backward substitution succeeds exactly if no pivot is zero. -/
theorem exists_backward_eq_some_iff {t : Table K n n} {b : Vector K n} :
    (∃ d, backward t b = some d) ↔ ∀ i, t.entry i i ≠ 0 := by
  rw [exists_backward_iff]
  exact forall_congr' fun i => by rw [← Bool.not_eq_true, Exact.isZero_iff]

/-! ### The whole system -/

/-- A solution that elimination finds solves the system that was factorized. -/
theorem mulVec_solve {A : Matrix (Fin n) (Fin n) K} {f : Factors K n} (hf : Splits A n f)
    {b d : Vector K n} (h : f.solve b = some d) : A *ᵥ d.get = b.get := by
  have hperm : A.submatrix f.exchange id *ᵥ d.get = b.get ∘ f.exchange := by
    calc A.submatrix f.exchange id *ᵥ d.get
        = lower f.table n *ᵥ (upper f.table n *ᵥ d.get) := by
          rw [show A.submatrix f.exchange id = _ from hf, Matrix.mulVec_mulVec]
      _ = lower f.table n *ᵥ (forward f.table (f.permute b)).get := by
          rw [upper_mulVec_backward h]
      _ = (f.permute b).get := lower_mulVec_forward f.table _
      _ = b.get ∘ f.exchange := funext (f.get_permute b)
  -- row `k` of the system is where the exchanges have put it
  funext k
  have hk := congrFun hperm (f.exchange.symm k)
  rw [Function.comp_apply, Equiv.apply_symm_apply] at hk
  rw [← hk]
  show A k ⬝ᵥ d.get = A (f.exchange (f.exchange.symm k)) ⬝ᵥ d.get
  rw [Equiv.apply_symm_apply]

end NewtonMethod
