/-
NewtonMethod/Proofs/Tolerance.lean

Searches that differ in their tolerance only.

The tolerance enters a search in one place, the test of a point.  So two searches
from the same point with the tolerances `t ≤ t'` have the same iterates, and each
iterate that the larger tolerance rejects is rejected by the smaller one too:

    residual ≤ t         both searches end here
    t < residual ≤ t'    the search with t' ends here, the other one goes on
    t' < residual        both searches go on

Where the search with `t'` does not end in a point of the second kind, the two end
alike.  No induction is needed, because `report_eq_ok_iff_tests` and
`report_eq_error_iff` say of a whole search where it ends.  `report_withTolerance`
is the comparison of the two searches.  Of the arithmetic it needs that the
comparisons put its values in a line, which those of the doubles do.
-/
import NewtonMethod.Proofs.Comparison
import NewtonMethod.Proofs.Failure

namespace NewtonMethod.Solver

open Run PointSpace

variable {X α J : Type}

/-- The same solver with another tolerance. -/
def withTolerance (s : Solver X α J) (t : α) : Solver X α J :=
  { s with config := { s.config with tolerance := t } }

variable [Arithmetic α] [PointSpace X α J] {s : Solver X α J} {t : α} {i k : Nat} {x y : X}

/-! ### What the tolerance does not change -/

/-- The step from a point does not depend on the tolerance. -/
theorem withTolerance_updates : (s.withTolerance t).Updates x y ↔ s.Updates x y := by
  rw [updates_iff 0, updates_iff 0]
  rfl

theorem withTolerance_iterates : (s.withTolerance t).Iterates x k y ↔ s.Iterates x k y :=
  ⟨Iterates.imp fun _ _ => withTolerance_updates.mp,
    Iterates.imp fun _ _ => withTolerance_updates.mpr⟩

theorem withTolerance_stepStops {fx : X} {stop : Stop α} :
    (s.withTolerance t).StepStops i x fx stop ↔ s.StepStops i x fx stop := by
  rw [← advance_eq_error_iff, ← advance_eq_error_iff]
  rfl

/-! ### What a larger tolerance rejects -/

section Larger

variable [LawfulComparison α] (hle : Arithmetic.le s.config.tolerance t = true)

include hle

/-- A residual above the larger tolerance is above the smaller one. -/
theorem Rejects.of_withTolerance (h : (s.withTolerance t).Rejects x) : s.Rejects x := by
  obtain ⟨r, hr, hreject⟩ := h
  exact ⟨r, hr, LawfulComparison.not_le_of_le hle hreject⟩

theorem RejectsBefore.of_withTolerance (h : (s.withTolerance t).RejectsBefore x k) :
    s.RejectsBefore x k := by
  intro j hj
  obtain ⟨y, hy, hreject⟩ := h j hj
  exact ⟨y, withTolerance_iterates.mp hy, hreject.of_withTolerance hle⟩

/-- What the search with the larger tolerance tests, the other one tests too. -/
theorem Tests.of_withTolerance (hvalid : s.config.validate = .ok ())
    (h : (s.withTolerance t).Tests x i y) : s.Tests x i y where
  valid := hvalid
  start_finite := h.start_finite
  iterate := withTolerance_iterates.mp h.iterate
  finite := h.finite
  rejected_before := h.rejected_before.of_withTolerance hle
  within_budget := h.within_budget

theorem StopsAt.of_withTolerance {stop : Stop α} (h : (s.withTolerance t).StopsAt i x stop) :
    s.StopsAt i x stop := by
  cases h with
  | fault hf => exact .fault hf
  | notFinite hf hbad => exact .notFinite hf hbad
  | exhausted hr hreject hlast =>
    exact .exhausted hr (LawfulComparison.not_le_of_le hle hreject) hlast
  | step hf hfin hreject hmore hstops =>
    exact .step hf hfin (LawfulComparison.not_le_of_le hle hreject) hmore
      (withTolerance_stepStops.mp hstops)

end Larger

/-! ### A search that goes on from an iterate -/

/-- A search from `x` that ends with `o` ends after its `k`-th iterate: with a later one, or with an
error of that one or a later one. -/
inductive EndsAfter (s : Solver X α J) (x : X) (k : Nat) :
    Except (Stop α) (Report X α) → Prop
  | found {found : Report X α} (later : k < found.iterations) : EndsAfter s x k (.ok found)
  | stopped {i : Nat} {y : X} {stop : Stop α} (later : k ≤ i) (tests : s.Tests x i y)
      (stops : s.StopsAt i y stop) : EndsAfter s x k (.error stop)

/-- A search that rejects an iterate ends after it. -/
theorem endsAfter_of_rejects (htests : s.Tests x k y) (hreject : s.Rejects y) :
    s.EndsAfter x k (s.report x).outcome := by
  have hbefore : s.RejectsBefore x (k + 1) :=
    rejectsBefore_succ_iff_last.mpr ⟨htests.rejected_before, y, htests.iterate, hreject⟩
  rcases h : (s.report x).outcome with stop | found
  · rcases report_eq_error_iff.mp h with hstart | ⟨-, -, hzero, -⟩ | ⟨i, z, hz, hstops⟩
    · rw [checkStart_eq_pure htests.valid htests.start_finite] at hstart
      cases hstart
    · exact absurd htests.within_budget (hzero ▸ Nat.not_lt_zero k)
    · refine .stopped (Nat.not_lt.mp fun hi => ?_) hz hstops
      -- the iterates before the `k`-th one are passed
      obtain ⟨z', hz', hreject⟩ := htests.rejected_before i hi
      rw [hz'.unique hz.iterate] at hreject
      obtain ⟨w, hw⟩ := htests.iterate.exists_updates hi hz.iterate
      have hmore : i + 1 < s.config.maxIterations := by
        have := htests.within_budget
        omega
      exact hstops.not_updates hreject hmore hw
  · obtain ⟨hfound, haccept⟩ := report_eq_ok_iff_tests.mp h
    refine .found (Nat.not_le.mp fun hk => ?_)
    obtain ⟨z, hz, hreject⟩ := hbefore found.iterations (Nat.lt_succ_of_le hk)
    rw [hz.unique hfound.iterate] at hreject
    exact hreject.not_accepts haccept

/-! ### The two searches -/

/-- With the tolerance `t` the search from `x` ends with `found`, which is an iterate that the
search with the tolerance of `s` tests, rejects and goes on from. -/
structure EndsEarlier (s : Solver X α J) (t : α) (x : X) (found : Report X α) : Prop where
  outcome : ((s.withTolerance t).report x).outcome = .ok found
  tests : s.Tests x found.iterations found.root
  residual : s.HasResidual found.root found.residualNorm
  above : Arithmetic.lt s.config.tolerance found.residualNorm = true
  within : Arithmetic.le found.residualNorm t = true
  later : s.EndsAfter x found.iterations (s.report x).outcome

section TwoSearches

variable [LawfulComparison α] (hle : Arithmetic.le s.config.tolerance t = true)
  (hvalid : s.config.validate = .ok ())

include hle hvalid

/-- A failure of the search with the larger tolerance is one of the other search. -/
theorem report_of_withTolerance_eq_error
    (hvalid' : (s.withTolerance t).config.validate = .ok ()) {stop : Stop α}
    (h : ((s.withTolerance t).report x).outcome = .error stop) :
    (s.report x).outcome = .error stop := by
  refine report_eq_error_iff.mpr ?_
  rcases report_eq_error_iff.mp h with hstart | ⟨-, hx, hzero, rfl⟩ | ⟨i, y, htests, hstops⟩
  · -- the tolerances are both accepted, so it is the starting point that is refused
    rcases checkStart_eq_error_iff.mp hstart with ⟨fault, hfault, -⟩ | ⟨-, hx, rfl⟩
    · cases hvalid'.symm.trans hfault
    · exact .inl (checkStart_eq_error_iff.mpr (.inr ⟨hvalid, hx, rfl⟩))
  · exact .inr (.inl ⟨hvalid, hx, hzero, rfl⟩)
  · exact .inr (.inr ⟨i, y, htests.of_withTolerance hle hvalid, hstops.of_withTolerance hle⟩)

/-- What the larger tolerance finds is found by the smaller one as well, or it is passed. -/
theorem report_of_withTolerance_eq_ok {found : Report X α}
    (h : ((s.withTolerance t).report x).outcome = .ok found) :
    (s.report x).outcome = .ok found ∨ s.EndsEarlier t x found := by
  obtain ⟨htests, hresidual, hwithin⟩ := report_eq_ok_iff_tests.mp h
  have htests : s.Tests x found.iterations found.root := htests.of_withTolerance hle hvalid
  -- it depends on the smaller tolerance whether the residual is in between
  rcases hreject : Arithmetic.le found.residualNorm s.config.tolerance with - | -
  · exact .inr
      { outcome := h
        tests := htests
        residual := hresidual
        above := LawfulComparison.lt_of_le_of_not_le hwithin hle hreject
        within := hwithin
        later := endsAfter_of_rejects htests ⟨_, hresidual, hreject⟩ }
  · exact .inl (report_eq_ok_iff_tests.mpr ⟨htests, hresidual, hreject⟩)

end TwoSearches

/-- **A larger tolerance only ends a search earlier.**  Of two searches with accepted tolerances the
one with the larger tolerance ends as the other one does, or it ends at an iterate that the other
one passes, the residual there being between the tolerances.  So if the smaller tolerance is
reached, the larger one is, after no more steps. -/
theorem report_withTolerance [LawfulComparison α] (s : Solver X α J) (x : X) (t : α)
    (hle : Arithmetic.le s.config.tolerance t = true) (hvalid : s.config.validate = .ok ())
    (hvalid' : (s.withTolerance t).config.validate = .ok ()) :
    (((s.withTolerance t).report x).outcome = (s.report x).outcome
      ∨ ∃ found, s.EndsEarlier t x found)
    ∧ ∀ found, (s.report x).outcome = .ok found →
        ∃ earlier, ((s.withTolerance t).report x).outcome = .ok earlier
          ∧ earlier.iterations ≤ found.iterations := by
  have hcompare : ((s.withTolerance t).report x).outcome = (s.report x).outcome
      ∨ ∃ found, s.EndsEarlier t x found := by
    rcases h : ((s.withTolerance t).report x).outcome with stop | found
    · exact .inl (report_of_withTolerance_eq_error hle hvalid hvalid' h).symm
    · rcases report_of_withTolerance_eq_ok hle hvalid h with h | h
      · exact .inl h.symm
      · exact .inr ⟨found, h⟩
  refine ⟨hcompare, fun found hfound => ?_⟩
  rcases hcompare with h | ⟨earlier, h⟩
  · exact ⟨found, h.trans hfound, Nat.le_refl _⟩
  · have hlater := h.later
    rw [hfound] at hlater
    -- a success after that iterate comes with more steps
    cases hlater with
    | found hlt => exact ⟨earlier, h.outcome, Nat.le_of_lt hlt⟩

/-- The residuals of the iterates from 2 are 2, 1/4 and 1/144, and the second one is between the
tolerances. -/
theorem report_withTolerance_rootOfTwo :
    Arithmetic.le rootOfTwo.config.tolerance (1 / 3) = true
      ∧ rootOfTwo.config.validate = .ok ()
      ∧ (rootOfTwo.withTolerance (1 / 3)).config.validate = .ok ()
      ∧ rootOfTwo.EndsEarlier (1 / 3) 2 ⟨3 / 2, 1, 1 / 4⟩
      ∧ (rootOfTwo.report 2).outcome = .ok ⟨17 / 12, 2, 1 / 144⟩ := by
  have hle : Arithmetic.le rootOfTwo.config.tolerance (1 / 3) = true := by decide +kernel
  have hvalid : rootOfTwo.config.validate = .ok () := by decide +kernel
  have hvalid' : (rootOfTwo.withTolerance (1 / 3)).config.validate = .ok () := by decide +kernel
  have hlarger : ((rootOfTwo.withTolerance (1 / 3)).report 2).outcome = .ok ⟨3 / 2, 1, 1 / 4⟩ := by
    decide +kernel
  have hsmaller : (rootOfTwo.report 2).outcome = .ok ⟨17 / 12, 2, 1 / 144⟩ := by decide +kernel
  obtain ⟨hcompare, -⟩ := report_withTolerance rootOfTwo 2 (1 / 3) hle hvalid hvalid'
  refine ⟨hle, hvalid, hvalid', ?_, hsmaller⟩
  rcases hcompare with h | ⟨found, h⟩
  · rw [hlarger, hsmaller] at h
    -- the two searches do not take equally many steps
    have hsteps : 1 = 2 := congrArg Report.iterations (Except.ok.inj h)
    omega
  · obtain rfl := Except.ok.inj (hlarger.symm.trans h.outcome)
    exact h

end NewtonMethod.Solver
