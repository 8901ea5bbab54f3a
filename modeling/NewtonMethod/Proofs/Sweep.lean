/-
NewtonMethod/Proofs/Sweep.lean

Working through the columns of a square table, one at a time.

What elimination and substitution do in one column is a product with a matrix
`shear m i`, the identity with the column `m` added to its column `i`:

    shear m i * M      adds to each row of M its multiple of row i
    M * shear m i      adds M *ᵥ m to column i of M
    shear m i *ᵥ b     adds b i • m to b

What holds after all columns follows from one column by an invariant rule, for
the sweep from the first column to the last (`foldl_finRange_invariant`) and for
the sweep back, which may stop (`foldlM_reverse_finRange_invariant`).
-/
import Mathlib.LinearAlgebra.Matrix.Block

namespace NewtonMethod

open Matrix

/-! ### Invariants of a sweep -/

variable {σ : Type}

/-- A sweep from the first column to the last: `P i` holds when `i` columns are done. -/
theorem foldl_finRange_invariant {n : ℕ} {f : σ → Fin n → σ} {s : σ} (P : ℕ → σ → Prop)
    (start : P 0 s) (step : ∀ (i : Fin n) (s : σ), P i s → P (i + 1) (f s i)) :
    P n ((List.finRange n).foldl f s) := by
  induction n with
  | zero => exact start
  | succ n ih =>
    -- the last column is done last, so it comes after a sweep over `n` columns
    rw [List.finRange_succ_last, List.foldl_append, List.foldl_map]
    exact step (Fin.last n) _ (ih fun i s h => step i.castSucc s h)

/-- A sweep from the last column to the first that has not stopped: `P i` holds when the columns
from `i` on are done. -/
theorem foldlM_reverse_finRange_invariant {n : ℕ} {f : σ → Fin n → Option σ} {s s' : σ}
    (P : ℕ → σ → Prop) (start : P n s)
    (step : ∀ (i : Fin n) (s s' : σ), P (i + 1) s → f s i = some s' → P i s')
    (h : (List.finRange n).reverse.foldlM f s = some s') : P 0 s' := by
  induction n generalizing P s' with
  | zero =>
    obtain rfl : s = s' := by simpa using h
    exact start
  | succ n ih =>
    -- column 0 is the last one visited; before it comes a sweep over `n` columns, numbered from 1
    rw [List.finRange_succ, List.reverse_cons, List.foldlM_append, ← List.map_reverse,
      List.foldlM_map] at h
    obtain ⟨t, ht, hlast⟩ := Option.bind_eq_some_iff.mp h
    have hP : P 1 t := by
      refine ih (fun i => P (i + 1)) start (fun i s s' hs hf => ?_) ht
      exact step i.succ s s' (by simpa using hs) hf
    exact step 0 t s' hP (by simpa using hlast)

/-- A loop none of whose steps stops has a result. -/
theorem exists_foldlM_eq_some {β : Type} {f : σ → β → Option σ} {l : List β}
    (h : ∀ i ∈ l, ∀ s, ∃ s', f s i = some s') (s : σ) : ∃ s', l.foldlM f s = some s' := by
  induction l generalizing s with
  | nil => exact ⟨s, rfl⟩
  | cons i l ih =>
    obtain ⟨t, ht⟩ := h i List.mem_cons_self s
    obtain ⟨s', hs'⟩ := ih (fun j hj => h j (List.mem_cons_of_mem i hj)) t
    exact ⟨s', by rw [List.foldlM_cons, ht]; exact hs'⟩

/-! ### Shears -/

variable {K : Type} [CommRing K] {n : ℕ}

/-- The identity with the column `m` added to column `i`. -/
def shear (m : Fin n → K) (i : Fin n) : Matrix (Fin n) (Fin n) K :=
  1 + vecMulVec m (Pi.single i 1)

/-- A shear from the left adds to each row its multiple of row `i`. -/
theorem shear_mul_apply (m : Fin n → K) (i : Fin n) (M : Matrix (Fin n) (Fin n) K)
    (r c : Fin n) : (shear m i * M) r c = M r c + m r * M i c := by
  rw [shear, Matrix.add_mul, Matrix.one_mul, vecMulVec_mul, single_one_vecMul]
  rfl

theorem mul_shear_apply (m : Fin n → K) (i : Fin n) (M : Matrix (Fin n) (Fin n) K)
    (r c : Fin n) : (M * shear m i) r c = M r c + if c = i then (M *ᵥ m) r else 0 := by
  rw [shear, Matrix.mul_add, Matrix.mul_one, mul_vecMulVec, Matrix.add_apply, vecMulVec_apply,
    Pi.single_apply]
  split <;> simp

theorem shear_mulVec_apply (m : Fin n → K) (i : Fin n) (b : Fin n → K) (r : Fin n) :
    (shear m i *ᵥ b) r = b r + m r * b i := by
  rw [shear, Matrix.add_mulVec, Matrix.one_mulVec, vecMulVec_mulVec]
  simp [mul_comm]

/-- A shear is undone by the opposite one, if it leaves its own row alone. -/
theorem shear_mul_shear_neg {m : Fin n → K} {i : Fin n} (h : m i = 0) :
    shear m i * shear (-m) i = 1 := by
  ext r c
  rw [shear_mul_apply]
  simp only [shear, Matrix.add_apply, vecMulVec_apply, Pi.neg_apply, h]
  -- the two products meet in column `i` only, where they cancel
  rcases eq_or_ne c i with rfl | hc
  · simp
  · simp [hc, Matrix.one_apply_ne hc.symm]

end NewtonMethod
