/-
NewtonMethod/Proofs/CombinedEquations.lean

Newton steps do not depend on how the equations are combined.

Let `B` be an invertible matrix.  The equations `B·F = 0` are combinations of the
equations `F = 0`, and their derivative is `B·J`, whether it is given that way or
taken by differences, since a difference quotient is linear in the function
(`Differences.quotient_mulVec`).

Elimination takes other pivots for `B·J` than for `J` and may exchange other rows, so
the two steps cannot be compared as they are computed.  They are compared by what
they answer: if `J` has a determinant other than zero so has `B·J`, the equations
`B·J·d = B·F` and `J·d = F` have the same only solution, and that is the step of both
(`Coordinates.exists_updates`).  If not, both are refused, and this is the law of a
linear solve with tolerance zero that is asked of a space in addition
(`Coordinates.RefusesSingular`).  Main result: `combinedEquations_sameStep`.
-/
import NewtonMethod.Proofs.AffineUpdate
import NewtonMethod.Proofs.Failure
import NewtonMethod.Proofs.StepLoop

namespace NewtonMethod

open Matrix PointSpace Run

variable {K : Type} [Field K] {n : ℕ}

/-! ### Combinations -/

/-- The table of the derivative of `B·F`, where `A` is that of the derivative of `F`. -/
def Table.combined (B : Matrix (Fin n) (Fin n) K) (A : Table K n n) : Table K n n :=
  Table.ofFn fun i j => (B * A.toMatrix) i j

theorem Table.toMatrix_combined (B : Matrix (Fin n) (Fin n) K) (A : Table K n n) :
    (A.combined B).toMatrix = B * A.toMatrix := by
  ext i j
  exact Table.entry_ofFn _ i j

variable [LinearOrder K] [ElementaryFunctions K]

/-- Combined equations have the same solution. -/
theorem IsOnlySolution.of_combined {B A : Matrix (Fin n) (Fin n) K} {b d : Fin n → K}
    (h : IsOnlySolution (B * A) (B *ᵥ b) d) (hB : IsUnit B) : IsOnlySolution A b d where
  solves := by
    apply Matrix.mulVec_injective_of_isUnit hB
    rw [Matrix.mulVec_mulVec, h.solves]
  unique e he := h.unique e (by rw [← Matrix.mulVec_mulVec, he])

namespace Differences

/-- The difference quotient of `F` at `v` along coordinate `j`. -/
def quotient (q : Differences K) (F : (Fin n → K) → Fin n → K) (v : Fin n → K) (j : Fin n) :
    Fin n → K :=
  match q.scheme with
  | .forward => q.stepScale⁻¹ • (F (v + Pi.single j q.stepScale) - F v)
  | .central => (Arithmetic.ofNat 2 * q.stepScale)⁻¹
      • (F (v + Pi.single j q.stepScale) - F (v + Pi.single j (-q.stepScale)))

/-- A quotient is linear in the function. -/
theorem quotient_mulVec (q : Differences K) (B : Matrix (Fin n) (Fin n) K)
    (F : (Fin n → K) → Fin n → K) (v : Fin n → K) (j : Fin n) :
    q.quotient (fun v => B *ᵥ F v) v j = B *ᵥ q.quotient F v j := by
  obtain ⟨h, _ | _⟩ := q
  · show h⁻¹ • (B *ᵥ _ - B *ᵥ _) = B *ᵥ (h⁻¹ • _)
    rw [Matrix.mulVec_smul, Matrix.mulVec_sub]
  · show (Arithmetic.ofNat 2 * h)⁻¹ • (B *ᵥ _ - B *ᵥ _) = B *ᵥ ((Arithmetic.ofNat 2 * h)⁻¹ • _)
    rw [Matrix.mulVec_smul, Matrix.mulVec_sub]

/-- The table whose columns are the quotients of `F`. -/
def quotients (q : Differences K) (F : (Fin n → K) → Fin n → K) (v : Fin n → K) : Table K n n :=
  Table.ofFn fun i j => q.quotient F v j i

theorem col_quotients (q : Differences K) (F : (Fin n → K) → Fin n → K) (v : Fin n → K)
    (j : Fin n) : (q.quotients F v).toMatrix.col j = q.quotient F v j := by
  funext i
  exact Table.entry_ofFn _ i j

/-- The quotients of `B·F` make the combined table. -/
theorem quotients_mulVec (q : Differences K) (B : Matrix (Fin n) (Fin n) K)
    (F : (Fin n → K) → Fin n → K) (v : Fin n → K) :
    q.quotients (fun v => B *ᵥ F v) v = (q.quotients F v).combined B := by
  apply Table.ext
  intro i j
  rw [quotients, Table.entry_ofFn, quotient_mulVec, ← col_quotients, Table.combined,
    Table.entry_ofFn]
  rfl

end Differences

namespace Coordinates

variable {X J : Type} [PointSpace X K J] (c : Coordinates X K J n)

/-- A derivative by differences is the table of the quotients. -/
theorem outcome_derivative {f : X → Except ShapeFault X} {F : (Fin n → K) → Fin n → K}
    (hf : ∀ v, f (c.point v) = .ok (c.point (F v))) (q : Differences K) (v : Fin n → K) :
    (q.derivative f (c.point v) (c.point (F v))).outcome = .ok (c.slope (q.quotients F v)) := by
  obtain ⟨h, _ | _⟩ := q
  · refine c.outcome_tabulate fun j => ?_
    rw [c.outcome_forwardColumn hf, Differences.col_quotients]
    rfl
  · refine c.outcome_tabulate fun j => ?_
    rw [c.outcome_centralColumn hf, Differences.col_quotients]
    rfl

/-! ### Two solvers for combined equations -/

/-- Of two derivatives the second is that of the combined equations, if the first is that of the
equations: both by the same differences, or both with functions of their own. -/
inductive CombinesSlopes (B : Matrix (Fin n) (Fin n) K) :
    Derivative X K J → Derivative X K J → Prop
  | differences (q : Differences K) : CombinesSlopes B (.differences q) (.differences q)
  | function {slope slope' : X → Except ShapeFault J} (A : (Fin n → K) → Table K n n)
      (value : ∀ v, slope (c.point v) = .ok (c.slope (A v)))
      (value' : ∀ v, slope' (c.point v) = .ok (c.slope ((A v).combined B))) :
      CombinesSlopes B (.function slope) (.function slope')

/-- At the points with `n` coordinates `s` seeks the root of `F` and `t` that of `B·F`, with the
same settings. -/
structure Combines (B : Matrix (Fin n) (Fin n) K) (F : (Fin n → K) → Fin n → K)
    (s t : Solver X K J) : Prop where
  value (v : Fin n → K) : s.function (c.point v) = .ok (c.point (F v))
  value' (v : Fin n → K) : t.function (c.point v) = .ok (c.point (B *ᵥ F v))
  slopes : c.CombinesSlopes B s.derivative t.derivative
  config : t.config = s.config

variable {c} {B : Matrix (Fin n) (Fin n) K} {F : (Fin n → K) → Fin n → K} {s t : Solver X K J}

/-- The derivatives are tables, the one being the combination of the other. -/
theorem Combines.exists_slopes (h : c.Combines B F s t) (v : Fin n → K) :
    ∃ A : Table K n n,
      (s.derivative.at s.function (c.point v) (c.point (F v))).outcome = .ok (c.slope A)
      ∧ (t.derivative.at t.function (c.point v) (c.point (B *ᵥ F v))).outcome
        = .ok (c.slope (A.combined B)) := by
  obtain ⟨f, d, config⟩ := s
  obtain ⟨f', d', config'⟩ := t
  obtain ⟨hf, hf', hslopes, -⟩ := h
  cases hslopes with
  | differences q =>
    refine ⟨q.quotients F v, bind_eq_ok_iff.mpr ⟨(), rfl, c.outcome_derivative hf q v⟩, ?_⟩
    -- both are tables of quotients, and these are combined as the equations are
    rw [← Differences.quotients_mulVec]
    exact bind_eq_ok_iff.mpr ⟨(), rfl, c.outcome_derivative hf' q v⟩
  | @function slope slope' A hslope hslope' =>
    refine ⟨A v, bind_eq_ok_iff.mpr ⟨(), rfl, ?_⟩, bind_eq_ok_iff.mpr ⟨(), rfl, ?_⟩⟩
    · exact (outcome_evaluate _ _ _).trans (ofExcept_eq_ok_iff.mpr (hslope v))
    · exact (outcome_evaluate _ _ _).trans (ofExcept_eq_ok_iff.mpr (hslope' v))

/-! ### Steps -/

/-- With tolerance zero a linear equation is refused if its determinant is zero. -/
def RefusesSingular (c : Coordinates X K J n) : Prop :=
  ∀ (A : Table K n n) (b : Fin n → K), A.toMatrix.det = 0 →
    solveLinear (c.slope A) (c.point b) 0 = .error .singular

section Step

variable {A : Table K n n} {v w : Fin n → K} (hvalid : s.config.validate = .ok ())
  (hzero : s.config.singularityTolerance = 0) (hf : s.function (c.point v) = .ok (c.point w))
  (hslope : (s.derivative.at s.function (c.point v) (c.point w)).outcome = .ok (c.slope A))

include hvalid hzero hf hslope

/-- A step is refused if the derivative is a table with determinant zero. -/
theorem step_of_det_eq_zero (hc : c.RefusesSingular) (hA : A.toMatrix.det = 0) :
    (s.step (c.point v) none).outcome
      = .error (.failure (.singularDerivative 0 (coordinates (c.point v)))) := by
  -- value and derivative are finite in exact arithmetic, so only the solve can refuse
  have hbegins : s.BeginsStep (c.point v) none (c.point w) :=
    ⟨hvalid, c.isFinite_point v, .inr ⟨rfl, hf⟩, c.isFinite_point w⟩
  refine hbegins.outcome_eq.trans (Solver.advance_eq_error_iff.mpr ?_)
  refine .singular hslope (c.isFiniteDerivative_slope A) ?_
  rw [hzero]
  exact hc A w hA

/-- With another determinant the step goes along the only solution of the linear equation, shortened
if it is too long. -/
theorem exists_step_of_det_ne_zero [IsStrictOrderedRing K] (hA : A.toMatrix.det ≠ 0) :
    ∃ d, IsOnlySolution A.toMatrix w d
      ∧ (s.step (c.point v) none).outcome
        = .ok (c.point (v - s.config.shortening (norm (c.point d)) • d)) := by
  -- a table with a pivot zero has determinant zero
  have hpivots : ∀ i, s.config.singularityTolerance < |(Factors.ofTable A).table.entry i i| := by
    intro i
    rw [hzero]
    exact abs_pos.mpr fun hi => hA ((det_eq_zero_iff A).mpr ⟨i, hi⟩)
  obtain ⟨d, hd, hupdate⟩ := exists_updates hzero.ge hf hslope hpivots
  exact ⟨d, hd, hupdate.step_eq_ok hvalid (c.isFinite_point v)⟩

end Step

/-- The steps of both solvers from `v` lead to the same point, or the derivatives of both are
singular. -/
structure SameStep (c : Coordinates X K J n) (s t : Solver X K J) (v : Fin n → K) : Prop where
  outcome : (t.step (c.point v) none).outcome = (s.step (c.point v) none).outcome
  ends : (∃ u, (s.step (c.point v) none).outcome = .ok (c.point u))
    ∨ (s.step (c.point v) none).outcome
      = .error (.failure (.singularDerivative 0 (coordinates (c.point v))))

/-- The determinants of both derivatives are zero, or neither is. -/
theorem Combines.sameStep [IsStrictOrderedRing K] (h : c.Combines B F s t)
    (hc : c.RefusesSingular) (hB : IsUnit B) (hvalid : s.config.validate = .ok ())
    (hzero : s.config.singularityTolerance = 0) (v : Fin n → K) : c.SameStep s t v := by
  have hvalid' : t.config.validate = .ok () := h.config ▸ hvalid
  have hzero' : t.config.singularityTolerance = 0 := h.config ▸ hzero
  obtain ⟨A, hslope, hslope'⟩ := h.exists_slopes v
  have hdet : (A.combined B).toMatrix.det = B.det * A.toMatrix.det := by
    rw [Table.toMatrix_combined, Matrix.det_mul]
  by_cases hA : A.toMatrix.det = 0
  · have hstep := step_of_det_eq_zero hvalid hzero (h.value v) hslope hc hA
    have hA' : (A.combined B).toMatrix.det = 0 := by
      rw [hdet, hA, mul_zero]
    exact ⟨(step_of_det_eq_zero hvalid' hzero' (h.value' v) hslope' hc hA').trans hstep.symm,
      .inr hstep⟩
  · obtain ⟨d, hd, hstep⟩ := exists_step_of_det_ne_zero hvalid hzero (h.value v) hslope hA
    have hA' : (A.combined B).toMatrix.det ≠ 0 := by
      rw [hdet]
      exact mul_ne_zero ((Matrix.isUnit_iff_isUnit_det B).mp hB).ne_zero hA
    obtain ⟨d', hd', hstep'⟩ := exists_step_of_det_ne_zero hvalid' hzero' (h.value' v) hslope' hA'
    -- what solves the combined equation solves the other one, and that has one solution only
    rw [Table.toMatrix_combined] at hd'
    obtain rfl : d' = d := hd.unique d' (hd'.of_combined hB).solves
    rw [h.config] at hstep'
    exact ⟨hstep'.trans hstep.symm, .inl ⟨_, hstep⟩⟩

/-! ### Refusals of vectors -/

section Spaces

variable [IsStrictOrderedRing K]

theorem fixed_refusesSingular :
    (fixed : Coordinates (Vector K n) K (Table K n n) n).RefusesSingular :=
  fun A _ hA => (solveLinear_zero_eq_singular_iff A _).mpr hA

theorem column_refusesSingular :
    (column : Coordinates (Array K) K (Jacobian K) n).RefusesSingular :=
  fun A _ hA => solveLinear_toArray_eq_singular.mpr ((solveLinear_zero_eq_singular_iff A _).mpr hA)

end Spaces

end Coordinates

open Coordinates

/-- **A step does not depend on how the equations are combined.**  In exact arithmetic with
singularity tolerance zero, a step for `B·F` with an invertible matrix `B` is the step for `F`: both
lead to the same point, or both derivatives are singular.  The trust radius, the function and the
way to its derivative may be any. -/
theorem combinedEquations_sameStep [IsStrictOrderedRing K] (config : Config K)
    (hvalid : config.validate = .ok ()) (hzero : config.singularityTolerance = 0)
    (B : Matrix (Fin n) (Fin n) K) (hB : IsUnit B) (F : (Fin n → K) → Fin n → K) (v : Fin n → K) :
    (∀ s t : Solver (Array K) K (Jacobian K), s.config = config → column.Combines B F s t →
      column.SameStep s t v) ∧
    (∀ s t : Solver (Vector K n) K (Table K n n), s.config = config → fixed.Combines B F s t →
      fixed.SameStep s t v) := by
  refine ⟨fun s t hconfig h => ?_, fun s t hconfig h => ?_⟩
  · subst hconfig
    exact h.sameStep column_refusesSingular hB hvalid hzero v
  · subst hconfig
    exact h.sameStep fixed_refusesSingular hB hvalid hzero v

/-- The equations `x² + y + 8 = 0` and `x·y + 6 = 0` are exchanged and scaled.  From `(1, 1)` the
solution `(3, 4)` is shortened to length one, and only the exchanged equations exchange rows in the
elimination. -/
theorem combinedEquations_sameStep_exchanged :
    let config : Config ℚ := ⟨1 / 10, 3, some 1, 1 / 2, .central, 0⟩
    let B : Matrix (Fin 2) (Fin 2) ℚ := !![0, 2; 3, 0]
    let F : (Fin 2 → ℚ) → Fin 2 → ℚ := fun v => ![v 0 ^ 2 + v 1 + 8, v 0 * v 1 + 6]
    let s : Solver (Vector ℚ 2) ℚ (Table ℚ 2 2) :=
      ⟨fun x => .ok (Vector.ofFn (F x.get)), .differences (.ofConfig config), config⟩
    let t : Solver (Vector ℚ 2) ℚ (Table ℚ 2 2) :=
      ⟨fun x => .ok (Vector.ofFn (B *ᵥ F x.get)), .differences (.ofConfig config), config⟩
    config.validate = .ok () ∧ config.singularityTolerance = 0 ∧ IsUnit B ∧ fixed.Combines B F s t
      ∧ (s.step #v[1, 1] none).outcome = .ok #v[2 / 5, 1 / 5]
      ∧ (t.step #v[1, 1] none).outcome = .ok #v[2 / 5, 1 / 5] := by
  intro config B F s t
  have hvalid : config.validate = .ok () := by decide +kernel
  have hB : IsUnit B := by
    refine (Matrix.isUnit_iff_isUnit_det B).mpr (isUnit_iff_ne_zero.mpr ?_)
    rw [Matrix.det_fin_two_of]
    norm_num
  -- both solvers read the entries of a vector and write those of another
  have hcombines : fixed.Combines B F s t := by
    have hget : ∀ v : Fin 2 → ℚ, (Vector.ofFn v).get = v := fun v => funext (get_ofFn v)
    refine ⟨fun v => ?_, fun v => ?_, .differences _, rfl⟩
    · exact congrArg (fun w => Except.ok (Vector.ofFn (F w))) (hget v)
    · exact congrArg (fun w => Except.ok (Vector.ofFn (B *ᵥ F w))) (hget v)
  have hstep : (s.step #v[1, 1] none).outcome = .ok #v[2 / 5, 1 / 5] := by decide +kernel
  obtain ⟨-, hfixed⟩ := combinedEquations_sameStep config hvalid rfl B hB F ![1, 1]
  exact ⟨hvalid, rfl, hB, hcombines, hstep, (hfixed s t rfl hcombines).outcome.trans hstep⟩

end NewtonMethod
