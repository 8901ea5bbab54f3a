/-
NewtonMethod/Proofs/SingularityTolerance.lean

Searches that differ in their singularity tolerance only.

A pivot at or below the tolerance makes a derivative singular, and nothing else is
asked of the tolerance.  So of two tolerances the smaller one, `t'`, refuses less
than the larger one, `t`:

* A linear equation that `t` does not call singular has the same answer with `t'`,
  be it a solution or a refusal of its shape (`KeepsAnswers`).  Substitution too
  can call an equation singular, for a zero on the diagonal, but it does so for
  both tolerances or for none.
* A step that does not fail as singular with `t` is the same with `t'`.
* A search that does not fail as singular with `t` is the same with `t'`, and one
  that does goes on, with `t'`, from the iterate it fails at.

Only the first item looks into a space, and it holds in all three of them.  What
follows for the searches is in `Proofs/Parting`; `singularityTolerance_lowersTo`
puts it together.
-/
import NewtonMethod.Proofs.Parting
import NewtonMethod.Proofs.Tolerance

namespace NewtonMethod

open PointSpace

/-! ### Linear equations -/

/-- An equation between points `X` that is not singular with the tolerance `t` has the same answer
with `t'`. -/
def KeepsAnswers (X : Type) {α J : Type} [PointSpace X α J] (t t' : α) : Prop :=
  ∀ (j : J) (b : X), solveLinear j b t ≠ .error .singular → solveLinear j b t' = solveLinear j b t

section Answers

variable {α : Type} [Arithmetic α] [LawfulComparison α] {t t' : α} {n : Nat}
  (hle : Arithmetic.le t' t = true)

include hle

/-- A pivot that is too small for the smaller tolerance is too small for the larger one. -/
theorem Factors.isSingular_of_le {f : Factors α n} (h : f.isSingular t' = true) :
    f.isSingular t = true := by
  obtain ⟨p, hp, hsmall⟩ := List.any_eq_true.mp h
  exact List.any_eq_true.mpr ⟨p, hp, LawfulComparison.le_trans hsmall hle⟩

/-- Elimination does not depend on the tolerance, and the test of the pivots accepts with both. -/
theorem Table.solve_of_le {A : Table α n n} {b : Vector α n} (h : A.solve b t ≠ .error .singular) :
    A.solve b t' = A.solve b t := by
  have hpivots : ¬(Factors.ofTable A).isSingular t = true := fun hsingular => h (if_pos hsingular)
  have hpivots' : ¬(Factors.ofTable A).isSingular t' = true :=
    fun hsingular => hpivots (Factors.isSingular_of_le hle hsingular)
  -- what substitution does is the same for both
  rw [Table.solve, Table.solve, if_neg hpivots, if_neg hpivots']

theorem fixed_keepsAnswers : KeepsAnswers (Vector α n) t t' :=
  fun _ _ h => Table.solve_of_le hle h

theorem column_keepsAnswers : KeepsAnswers (Array α) t t' := by
  intro j b h
  change Column.solve j b t ≠ _ at h
  show Column.solve j b t' = Column.solve j b t
  by_cases hshape : j.rows = j.cols ∧ j.rows = b.size
  · rw [Column.solve, dif_pos hshape] at h
    rw [Column.solve, Column.solve, dif_pos hshape, dif_pos hshape]
    refine congrArg (Except.map Vector.toArray) (Table.solve_of_le hle fun hsingular => h ?_)
    rw [hsingular]
    rfl
  · -- the shape is refused before the tolerance is looked at
    rw [Column.solve, Column.solve, dif_neg hshape, dif_neg hshape]

/-- Between numbers it is a quotient, refused for a slope that is too small. -/
theorem number_keepsAnswers : KeepsAnswers α t t' := by
  intro slope value h
  have hslope : ¬Arithmetic.le (Arithmetic.abs slope) t = true := fun hsmall => h (if_pos hsmall)
  have hslope' : ¬Arithmetic.le (Arithmetic.abs slope) t' = true :=
    fun hsmall => hslope (LawfulComparison.le_trans hsmall hle)
  show Scalar.solve slope value t' = Scalar.solve slope value t
  rw [Scalar.solve, Scalar.solve, if_neg hslope, if_neg hslope']

end Answers

namespace Solver

open Run

variable {X α J : Type}

/-- The same solver with another singularity tolerance. -/
def withSingularityTolerance (s : Solver X α J) (t : α) : Solver X α J :=
  { s with config := s.config.withSingularityTolerance t }

variable [Arithmetic α] [PointSpace X α J] {s : Solver X α J} {t' : α} {i : Nat} {x fx : X}

/-! ### Steps -/

/-- A step whose equation is not singular is the same with the other tolerance. -/
theorem advance_withSingularityTolerance
    (hkeeps : KeepsAnswers X s.config.singularityTolerance t')
    (h : ∀ jacobian, s.HasSlope x fx jacobian →
      solveLinear jacobian fx s.config.singularityTolerance ≠ .error .singular) :
    (s.withSingularityTolerance t').advance i x fx = s.advance i x fx := by
  have hslope : (s.withSingularityTolerance t').derivativeAt i x fx = s.derivativeAt i x fx := rfl
  rw [advance, advance, hslope]
  rcases hderivative : (s.derivativeAt i x fx).outcome with stop | jacobian
  · rw [bind_of_error hderivative, bind_of_error hderivative]
  · have hanswer :
        solveLinear jacobian fx (s.withSingularityTolerance t').config.singularityTolerance
          = solveLinear jacobian fx s.config.singularityTolerance :=
      hkeeps jacobian fx (h jacobian (derivativeAt_eq_ok_iff.mp hderivative))
    -- only the solve reads the tolerance
    have hsolution : (s.withSingularityTolerance t').solution i x fx jacobian
        = s.solution i x fx jacobian := by
      rw [solution, solution, hanswer]
    rw [bind_of_ok hderivative, bind_of_ok hderivative, hsolution]
    rfl

/-! ### Searches -/

section Searches

variable (hvalid : s.config.validate = .ok ())
  (hvalid' : (s.withSingularityTolerance t').config.validate = .ok ())

include hvalid hvalid'

theorem differInSteps_withSingularityTolerance :
    DifferInSteps s (s.withSingularityTolerance t') where
  start x := by rw [checkStart, checkStart, hvalid, hvalid']
  function := rfl
  tolerance := rfl
  budget := rfl

variable (hkeeps : KeepsAnswers X s.config.singularityTolerance t')

include hkeeps

/-- A search that never fails as singular is the same with the smaller tolerance. -/
theorem report_of_not_singular
    (h : ∀ i p, (s.report x).outcome ≠ .error (.failure (.singularDerivative i p))) :
    (s.withSingularityTolerance t').report x = s.report x := by
  apply report_congr (differInSteps_withSingularityTolerance hvalid hvalid')
  intro i y fy hy
  apply advance_withSingularityTolerance hkeeps
  intro jacobian hslope hsingular
  exact h i (coordinates y)
    (report_eq_singularDerivative_iff.mpr ⟨y, fy, jacobian, hy, rfl, hslope, hsingular⟩)

/-- Where a search fails as singular, the search with the smaller tolerance has come along with it
and goes on. -/
theorem together_of_singular {p : Array α}
    (h : (s.report x).outcome = .error (.failure (.singularDerivative i p))) :
    ∃ y fy, p = coordinates y ∧ s.Together (s.withSingularityTolerance t') x i y fy
      ∧ (s.withSingularityTolerance t').EndsAfter x i
          ((s.withSingularityTolerance t').report x).outcome := by
  obtain ⟨y, fy, jacobian, hy, hp, -, -⟩ := report_eq_singularDerivative_iff.mp h
  have hbefore : s.SameBefore (s.withSingularityTolerance t') x i := by
    intro k hk z fz hz
    apply advance_withSingularityTolerance hkeeps
    intro jacobian hslope hsingular
    -- the search would have ended at that iterate
    have hearlier : (s.report x).outcome
        = .error (.failure (.singularDerivative k (coordinates z))) :=
      report_eq_singularDerivative_iff.mpr ⟨z, fz, jacobian, hz, rfl, hslope, hsingular⟩
    rw [h] at hearlier
    cases hearlier
    exact Nat.lt_irrefl i hk
  have htogether : s.Together (s.withSingularityTolerance t') x i y fy :=
    together (differInSteps_withSingularityTolerance hvalid hvalid') hy hbefore
  -- that iterate is rejected by the other search too, so it ends there or later
  have hpassed := htogether.second
  have hreject : (s.withSingularityTolerance t').Rejects y :=
    ⟨norm fy, ⟨fy, hpassed.value, hpassed.value_finite, rfl⟩, hpassed.rejected⟩
  exact ⟨y, fy, hp, htogether, endsAfter_of_rejects hpassed.toTests hreject⟩

end Searches

end Solver

/-! ### Equations and searches in a space -/

section Lowered

open Solver

variable {X α J : Type} [Arithmetic α] [PointSpace X α J] {t t' : α}

/-- What becomes of the equations and the searches over points `X` if the singularity tolerance `t`
is lowered to `t'`. -/
structure LowersTo (X : Type) {α J : Type} [Arithmetic α] [PointSpace X α J] (t t' : α) : Prop where
  /-- A solution stays the same. -/
  solution : ∀ (j : J) (b d : X), solveLinear j b t = .ok d → solveLinear j b t' = .ok d
  /-- A search that does not fail as singular stays the same. -/
  kept : ∀ (s : Solver X α J) (x : X),
    (s.withSingularityTolerance t).config.validate = .ok () →
    (s.withSingularityTolerance t').config.validate = .ok () →
    (∀ i p, ((s.withSingularityTolerance t).report x).outcome
      ≠ .error (.failure (.singularDerivative i p))) →
    (s.withSingularityTolerance t').report x = (s.withSingularityTolerance t).report x
  /-- Where a search fails as singular, the search with `t'` has come along with it and does not end
  before. -/
  passed : ∀ (s : Solver X α J) (x : X),
    (s.withSingularityTolerance t).config.validate = .ok () →
    (s.withSingularityTolerance t').config.validate = .ok () →
    ∀ i p, ((s.withSingularityTolerance t).report x).outcome
        = .error (.failure (.singularDerivative i p)) →
      ∃ y fy, p = coordinates y
        ∧ (s.withSingularityTolerance t).Together (s.withSingularityTolerance t') x i y fy
        ∧ (s.withSingularityTolerance t').EndsAfter x i
            ((s.withSingularityTolerance t').report x).outcome

/-- What is said of equations and searches follows from the answers to equations alone. -/
theorem lowersTo_of_keepsAnswers (hkeeps : KeepsAnswers X t t') : LowersTo X t t' where
  solution j b d h := by
    rw [hkeeps j b (by rw [h]; rintro ⟨⟩), h]
  kept s x hvalid hvalid' h :=
    Solver.report_of_not_singular (s := s.withSingularityTolerance t) hvalid hvalid' hkeeps h
  passed s x hvalid hvalid' i p h :=
    Solver.together_of_singular (s := s.withSingularityTolerance t) hvalid hvalid' hkeeps h

/-- **A smaller singularity tolerance only lets a search go on.**  In each of the three spaces: a
solution of a linear equation stays the same with a smaller tolerance, and so does a search, with
all that it writes, unless it has failed as singular.  If it has, the search with the smaller
tolerance comes to the same iterate, by the same iterates, residuals and lines, and does not end
before. -/
theorem singularityTolerance_lowersTo [LawfulComparison α] (hle : Arithmetic.le t' t = true) :
    LowersTo α t t' ∧ LowersTo (Array α) t t' ∧ ∀ n, LowersTo (Vector α n) t t' := by
  refine ⟨?_, ?_, fun n => ?_⟩
  · exact lowersTo_of_keepsAnswers (number_keepsAnswers hle)
  · exact lowersTo_of_keepsAnswers (column_keepsAnswers hle)
  · exact lowersTo_of_keepsAnswers (fixed_keepsAnswers hle)

/-- From 2 the slopes are 4 and 3.  The tolerance 3 refuses the second one, and 0 lets the search go
on to the root that the tolerance 2 finds as well. -/
theorem singularityTolerance_lowersTo_rootOfTwo :
    Arithmetic.le (0 : ℚ) 3 = true ∧ Arithmetic.le (0 : ℚ) 2 = true
      ∧ ((rootOfTwo.withSingularityTolerance 3).report 2).outcome
        = .error (.failure (.singularDerivative 1 #[3 / 2]))
      ∧ ((rootOfTwo.withSingularityTolerance 0).report 2).outcome = .ok ⟨17 / 12, 2, 1 / 144⟩
      ∧ (∃ fy, (rootOfTwo.withSingularityTolerance 3).Together
          (rootOfTwo.withSingularityTolerance 0) 2 1 (3 / 2) fy)
      ∧ (rootOfTwo.withSingularityTolerance 0).report 2
        = (rootOfTwo.withSingularityTolerance 2).report 2 := by
  have hle : Arithmetic.le (0 : ℚ) 3 = true := by decide +kernel
  have hle' : Arithmetic.le (0 : ℚ) 2 = true := by decide +kernel
  have hvalid : ∀ t ∈ [(0 : ℚ), 2, 3],
      (rootOfTwo.withSingularityTolerance t).config.validate = .ok () := by decide +kernel
  have hsingular : ((rootOfTwo.withSingularityTolerance 3).report 2).outcome
      = .error (.failure (.singularDerivative 1 #[3 / 2])) := by decide +kernel
  have hfound : ∀ t ∈ [(0 : ℚ), 2],
      ((rootOfTwo.withSingularityTolerance t).report 2).outcome
        = .ok ⟨17 / 12, 2, 1 / 144⟩ := by decide +kernel
  obtain ⟨hlowered, -, -⟩ := singularityTolerance_lowersTo hle
  obtain ⟨hlowered', -, -⟩ := singularityTolerance_lowersTo hle'
  obtain ⟨y, fy, hy, htogether, -⟩ :=
    hlowered.passed rootOfTwo 2 (hvalid 3 (by simp)) (hvalid 0 (by simp)) 1 _ hsingular
  obtain rfl : 3 / 2 = y := congrArg (fun a : Array ℚ => a.toList.headD y) hy
  refine ⟨hle, hle', hsingular, hfound 0 (by simp), ⟨fy, htogether⟩, ?_⟩
  apply hlowered'.kept rootOfTwo 2 (hvalid 2 (by simp)) (hvalid 0 (by simp))
  intro i p h
  rw [hfound 2 (by simp)] at h
  cases h

end Lowered

end NewtonMethod
