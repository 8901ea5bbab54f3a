/-
NewtonMethod/Proofs/TrustRadius.lean

Searches with a trust radius and without one.

A step that is not longer than the radius is taken as it is, and nothing is written
about it.  A longer one is announced and shortened.  So a search with a radius goes
along with the search that has none until the first step of that search that is
longer than the radius:

    search without     lines of the derivative
    search with        lines of the derivative, the clamp

If there is no such step, the two searches are the same.  That a length compares
with nothing counts as not being longer, in both searches.

The radius does not end a search.  Where a search with a radius ends, the other
one, had it come to that point, would end for the same reason, or the shortened
step does not lead to a finite point (`BoundedEnd`).

Main result: `report_withMaxRadius`.
-/
import NewtonMethod.Proofs.Course
import NewtonMethod.Proofs.Parting

namespace NewtonMethod

open PointSpace

/-- A radius that is positive and finite leaves the check of the other settings as it is. -/
theorem Config.validate_withMaxRadius {α : Type} [Arithmetic α] {c : Config α} {r : α}
    (hnone : c.maxRadius = none) (hr : Config.isPositive r = true) :
    (c.withMaxRadius r).validate = c.validate := by
  have hfilter : (c.withMaxRadius r).maxRadius.filter (!isPositive ·)
      = c.maxRadius.filter (!isPositive ·) := by
    rw [hnone]
    show Option.filter (!isPositive ·) (some r) = none
    simp [hr]
  rw [validate, validate, hfilter]
  rfl

namespace Solver

open Run

variable {X α J : Type}

/-- The same solver with a trust radius. -/
def withMaxRadius (s : Solver X α J) (r : α) : Solver X α J :=
  { s with config := s.config.withMaxRadius r }

variable [Arithmetic α] [PointSpace X α J] {s : Solver X α J} {r : α} {i : Nat} {x fx delta : X}

/-- The search from `x` takes a step from its `i`-th iterate `y`, where the function has the value
`fy`, and that step is longer than `r` before anything shortens it. -/
structure LongStep (s : Solver X α J) (r : α) (x : X) (i : Nat) (y fy delta : X) : Prop where
  steps : s.StepsFrom x i y fy
  step : s.HasStep y fy delta
  long : Arithmetic.lt r (norm delta) = true

/-! ### Steps -/

/-- Before a longer step is shortened, the lines are those of the derivative, with a radius and
without one. -/
theorem exists_journal_longStep (hstep : s.HasStep x fx delta)
    (hlong : Arithmetic.lt r (norm delta) = true) :
    ∃ lines, lines <+: (s.advance i x fx).journal
      ∧ lines ++ [.event (.clamped (norm delta) r)]
          <+: ((s.withMaxRadius r).advance i x fx).journal := by
  -- derivative and solution do not depend on the radius
  have hstep' : (s.withMaxRadius r).HasStep x fx delta := hstep
  have hevents : (s.withMaxRadius r).clampEvents delta = [.clamped (norm delta) r] := if_pos hlong
  refine ⟨(s.derivative.at s.function x fx).journal, ?_, ?_⟩
  · rw [advance_of_hasStep hstep]
    exact List.prefix_append _ _
  · rw [advance_of_hasStep hstep', hevents, ← List.append_assoc]
    exact List.prefix_append _ _

section Radius

variable (hnone : s.config.maxRadius = none)

include hnone

/-- A step that is not longer than the radius is taken as it is. -/
theorem advance_withMaxRadius
    (hshort : ∀ delta, s.HasStep x fx delta → Arithmetic.lt r (norm delta) = false) :
    (s.withMaxRadius r).advance i x fx = s.advance i x fx := by
  have hslope : (s.withMaxRadius r).derivativeAt i x fx = s.derivativeAt i x fx := rfl
  rw [advance, advance, hslope]
  rcases hderivative : (s.derivativeAt i x fx).outcome with stop | jacobian
  · rw [bind_of_error hderivative, bind_of_error hderivative]
  have hsolution : (s.withMaxRadius r).solution i x fx jacobian = s.solution i x fx jacobian := rfl
  rw [bind_of_ok hderivative, bind_of_ok hderivative, hsolution]
  rcases hsolve : (s.solution i x fx jacobian).outcome with stop | delta
  · rw [bind_of_error hsolve, bind_of_error hsolve]
  have hstep : s.HasStep x fx delta :=
    ⟨jacobian, derivativeAt_eq_ok_iff.mp hderivative, solution_eq_ok_iff.mp hsolve⟩
  -- a step within the radius is not changed, and nothing is written about it
  have hclamp : (s.withMaxRadius r).clamp delta = s.clamp delta := by
    rw [clamp, clamp, hnone]
    exact if_neg (Bool.eq_false_iff.mp (hshort delta hstep))
  rw [bind_of_ok hsolve, bind_of_ok hsolve, hclamp]

/-! ### Searches -/

variable (hr : Config.isPositive r = true)

include hr

theorem differInSteps_withMaxRadius : DifferInSteps s (s.withMaxRadius r) where
  start x := by
    have hvalid : (s.withMaxRadius r).config.validate = s.config.validate :=
      Config.validate_withMaxRadius hnone hr
    rw [checkStart, checkStart, hvalid]
  function := rfl
  tolerance := rfl
  budget := rfl

/-- A search without a step longer than the radius is the same with the radius. -/
theorem report_of_no_longStep (h : ∀ i y fy delta, ¬s.LongStep r x i y fy delta) :
    (s.withMaxRadius r).report x = s.report x := by
  apply report_congr (differInSteps_withMaxRadius hnone hr)
  intro i y fy hy
  apply advance_withMaxRadius hnone
  intro delta hstep
  apply Bool.eq_false_iff.mpr
  intro hlong
  exact h i y fy delta ⟨hy, hstep, hlong⟩

/-- The searches go together until the first step that is longer than the radius. -/
theorem together_of_longStep {y fy : X} (h : s.LongStep r x i y fy delta)
    (hfirst : ∀ k < i, ∀ z fz e, ¬s.LongStep r x k z fz e) :
    s.Together (s.withMaxRadius r) x i y fy := by
  apply together (differInSteps_withMaxRadius hnone hr) h.steps
  intro k hk z fz hz
  apply advance_withMaxRadius hnone
  intro e hstep
  apply Bool.eq_false_iff.mpr
  intro hlong
  exact hfirst k hk z fz e ⟨hz, hstep, hlong⟩

end Radius

/-- The journals begin alike, up to the line of the clamp. -/
theorem exists_journal_together {y fy : X} (h : s.LongStep r x i y fy delta)
    (htogether : s.Together (s.withMaxRadius r) x i y fy) :
    ∃ lines, lines <+: (s.report x).journal
      ∧ lines ++ [.event (.clamped (norm delta) r)]
          <+: ((s.withMaxRadius r).report x).journal := by
  obtain ⟨before, hs, ht⟩ := htogether.journals
  obtain ⟨lines, hlines, hclamped⟩ := exists_journal_longStep (i := i) h.step h.long
  refine ⟨before ++ lines, ?_, ?_⟩
  · exact ((List.prefix_append_right_inj before).mpr hlines).trans hs
  · rw [List.append_assoc]
    exact ((List.prefix_append_right_inj before).mpr hclamped).trans ht

/-! ### The end of a search with a radius -/

/-- The ends of the search from `x` with the radius `r`, for a solver `s` without one.  The residual
test and the budget are those of `s`, a point is left by a step of `s`, shortened or not, and where
there is no step, there is none for `s` either. -/
inductive BoundedEnd (s : Solver X α J) (r : α) (x : X) : Except (Stop α) (Report X α) → Prop
  | refused {stop : Stop α} (start : (s.checkStart x).outcome = .error stop) :
      BoundedEnd s r x (.error stop)
  | noBudget (none : s.config.maxIterations = 0) :
      BoundedEnd s r x
        (.error (.failure (.maxIterationsExceeded 0 Arithmetic.nan (coordinates x))))
  | accepted {found : Report X α}
      (tests : (s.withMaxRadius r).Tests x found.iterations found.root)
      (accepts : s.Accepts found.root found.residualNorm) : BoundedEnd s r x (.ok found)
  | stopped {i : Nat} {y : X} {stop : Stop α} (tests : (s.withMaxRadius r).Tests x i y)
      (stops : s.StopsAt i y stop) : BoundedEnd s r x (.error stop)
  | unmoved {i : Nat} {y fy delta : X} {stop : Stop α}
      (steps : (s.withMaxRadius r).StepsFrom x i y fy) (step : s.HasStep y fy delta)
      (move : (move i y ((s.withMaxRadius r).clamped delta) : Run α X).outcome = .error stop) :
      BoundedEnd s r x (.error stop)

/-- Where a search with a radius stops at a point, it is for a reason that has nothing to do with
the radius, or the step that is left of a step cannot be taken. -/
theorem boundedEnd_of_stopsAt {y : X} {stop : Stop α} (htests : (s.withMaxRadius r).Tests x i y)
    (h : (s.withMaxRadius r).StopsAt i y stop) : s.BoundedEnd r x (.error stop) := by
  cases h with
  | fault hf => exact .stopped htests (.fault hf)
  | notFinite hf hbad => exact .stopped htests (.notFinite hf hbad)
  | exhausted hresidual hreject hlast => exact .stopped htests (.exhausted hresidual hreject hlast)
  | @step fy _ hf hfin hreject hmore hstops =>
    have hsteps : (s.withMaxRadius r).StepsFrom x i y fy := ⟨htests, hf, hfin, hreject, hmore⟩
    -- up to the clamp the step is that of the solver without a radius
    have hsame : s.StepStops i y fy stop → s.BoundedEnd r x (.error stop) := fun hstops =>
      .stopped htests (.step hf hfin hreject hmore hstops)
    cases hstops with
    | slopeFault hslope => exact hsame (.slopeFault hslope)
    | slopeNotFinite hslope hbad => exact hsame (.slopeNotFinite hslope hbad)
    | singular hslope hslopefin hsolve => exact hsame (.singular hslope hslopefin hsolve)
    | shape hslope hslopefin hsolve => exact hsame (.shape hslope hslopefin hsolve)
    | moveFault hslope hslopefin hsolve hmove =>
      exact .unmoved hsteps ⟨_, ⟨hslope, hslopefin⟩, hsolve⟩
        (move_eq_error_iff.mpr (.inl ⟨_, hmove, rfl⟩))
    | overflow hslope hslopefin hsolve hmove hbad =>
      exact .unmoved hsteps ⟨_, ⟨hslope, hslopefin⟩, hsolve⟩
        (move_eq_error_iff.mpr (.inr ⟨_, hmove, hbad, rfl⟩))

theorem boundedEnd_report (hnone : s.config.maxRadius = none) (hr : Config.isPositive r = true)
    (x : X) : s.BoundedEnd r x ((s.withMaxRadius r).report x).outcome := by
  rcases h : ((s.withMaxRadius r).report x).outcome with stop | found
  · rcases report_eq_error_iff.mp h with hstart | ⟨-, -, hzero, rfl⟩ | ⟨i, y, htests, hstops⟩
    · rw [(differInSteps_withMaxRadius hnone hr).start] at hstart
      exact .refused hstart
    · exact .noBudget hzero
    · exact boundedEnd_of_stopsAt htests hstops
  · obtain ⟨htests, haccept⟩ := report_eq_ok_iff_tests.mp h
    exact .accepted htests haccept

/-- **A trust radius that no step exceeds makes no difference.**  If no step of a search without a
radius is longer than `r`, the search with the radius `r` is the same, with all that it writes.
Otherwise the two come to the iterate with the first longer step by the same iterates and the same
lines, and the next line that either writes alone is that of the clamp.  The radius never ends a
search. -/
theorem report_withMaxRadius (s : Solver X α J) (r : α) (x : X)
    (hnone : s.config.maxRadius = none) (hr : Config.isPositive r = true) :
    ((∀ i y fy delta, ¬s.LongStep r x i y fy delta) →
      (s.withMaxRadius r).report x = s.report x)
    ∧ (∀ i y fy delta, s.LongStep r x i y fy delta →
      (∀ k < i, ∀ z fz e, ¬s.LongStep r x k z fz e) →
        s.Together (s.withMaxRadius r) x i y fy
        ∧ ∃ lines, lines <+: (s.report x).journal
            ∧ lines ++ [.event (.clamped (norm delta) r)]
                <+: ((s.withMaxRadius r).report x).journal)
    ∧ s.BoundedEnd r x ((s.withMaxRadius r).report x).outcome := by
  refine ⟨report_of_no_longStep hnone hr, fun i y fy delta hlong hfirst => ?_,
    boundedEnd_report hnone hr x⟩
  have htogether := together_of_longStep hnone hr hlong hfirst
  exact ⟨htogether, exists_journal_together hlong htogether⟩

/-- A search for a root of `x² + 1`, over the rational numbers. -/
def rootless : Solver ℚ ℚ ℚ where
  function x := .ok (x * x + 1)
  derivative := .function fun x => .ok (2 * x)
  config := ⟨1 / 10, 4, none, 1, .forward, 0⟩

theorem eq_of_rootless_hasStep {y fy delta : ℚ} (h : rootless.HasStep y fy delta) :
    delta = fy / (2 * y) := by
  obtain ⟨jacobian, ⟨hslope, -⟩, hsolve⟩ := h
  obtain rfl : 2 * y = jacobian := Except.ok.inj hslope
  change Scalar.solve (2 * y) fy 0 = .ok delta at hsolve
  rw [Scalar.solve] at hsolve
  split at hsolve
  next => cases hsolve
  next => exact (Except.ok.inj hsolve).symm

theorem rootless_iterates :
    rootless.Iterates 2 1 (3 / 4) ∧ rootless.Iterates 2 2 (-7 / 24) := by
  have hfirst : rootless.Updates 2 (3 / 4) :=
    (updates_iff 0).mpr ⟨5, by decide +kernel, rfl, by decide +kernel⟩
  have hsecond : rootless.Updates (3 / 4) (-7 / 24) :=
    (updates_iff 0).mpr ⟨25 / 16, by decide +kernel, rfl, by decide +kernel⟩
  exact ⟨.next hfirst (.start _), .next hfirst (.next hsecond (.start _))⟩

theorem rootless_stepsFrom : rootless.StepsFrom 2 2 (-7 / 24) (625 / 576) where
  valid := by decide +kernel
  start_finite := rfl
  iterate := rootless_iterates.2
  finite := rfl
  rejected_before := by
    intro k hk
    obtain rfl | rfl : k = 0 ∨ k = 1 := by omega
    · exact ⟨2, .start 2, 5, ⟨5, by decide +kernel, rfl, by decide +kernel⟩, by decide +kernel⟩
    · exact ⟨3 / 4, rootless_iterates.1, 25 / 16,
        ⟨25 / 16, by decide +kernel, rfl, by decide +kernel⟩, by decide +kernel⟩
  within_budget := by decide
  value := by decide +kernel
  value_finite := rfl
  rejected := by decide +kernel
  more := by decide

/-- The lengths of all steps that the search takes. -/
theorem lt_of_rootless_longStep {r : ℚ} {i : Nat} {y fy delta : ℚ}
    (h : rootless.LongStep r 2 i y fy delta) :
    (i = 0 ∧ r < 5 / 4) ∨ (i = 1 ∧ r < 25 / 24) ∨ (i = 2 ∧ r < 625 / 336) := by
  have hlong : r < |delta| := Exact.lt_iff.mp h.long
  have hi : i + 1 < 4 := h.steps.more
  obtain rfl : y * y + 1 = fy := Except.ok.inj h.steps.value
  rw [eq_of_rootless_hasStep h.step] at hlong
  obtain rfl | rfl | rfl : i = 0 ∨ i = 1 ∨ i = 2 := by omega
  · obtain rfl := h.steps.iterate.unique (.start 2)
    exact .inl ⟨rfl, hlong.trans_eq (by decide +kernel)⟩
  · obtain rfl := h.steps.iterate.unique rootless_iterates.1
    exact .inr (.inl ⟨rfl, hlong.trans_eq (by decide +kernel)⟩)
  · obtain rfl := h.steps.iterate.unique rootless_iterates.2
    exact .inr (.inr ⟨rfl, hlong.trans_eq (by decide +kernel)⟩)

/-- From 2 the lengths of the steps are 5/4, 25/24 and 625/336.  The radius 3/2 shortens the third
one, the radius 2 none. -/
theorem report_withMaxRadius_rootless :
    rootless.config.maxRadius = none
      ∧ (∀ r ∈ [(3 / 2 : ℚ), 2], Config.isPositive r = true)
      ∧ rootless.LongStep (3 / 2) 2 2 (-7 / 24) (625 / 576) (-625 / 336)
      ∧ rootless.Together (rootless.withMaxRadius (3 / 2)) 2 2 (-7 / 24) (625 / 576)
      ∧ rootless.BoundedEnd (3 / 2) 2 ((rootless.withMaxRadius (3 / 2)).report 2).outcome
      ∧ ((rootless.withMaxRadius (3 / 2)).report 2).outcome ≠ (rootless.report 2).outcome
      ∧ (rootless.withMaxRadius 2).report 2 = rootless.report 2 := by
  have hpositive : ∀ r ∈ [(3 / 2 : ℚ), 2], Config.isPositive r = true := by decide +kernel
  have hstep : rootless.HasStep (-7 / 24) (625 / 576) (-625 / 336) :=
    ⟨-7 / 12, ⟨by decide +kernel, rfl⟩, by decide +kernel⟩
  have hlong : rootless.LongStep (3 / 2) 2 2 (-7 / 24) (625 / 576) (-625 / 336) :=
    ⟨rootless_stepsFrom, hstep, by decide +kernel⟩
  obtain ⟨-, htogether, hend⟩ :=
    report_withMaxRadius rootless (3 / 2) 2 rfl (hpositive _ (by simp))
  obtain ⟨hunused, -, -⟩ := report_withMaxRadius rootless 2 2 rfl (hpositive _ (by simp))
  refine ⟨rfl, hpositive, hlong, (htogether 2 _ _ _ hlong ?_).1, hend, by decide +kernel,
    hunused ?_⟩
  · -- the steps before the third one are shorter
    intro k hk z fz e h
    rcases lt_of_rootless_longStep h with ⟨-, hlt⟩ | ⟨-, hlt⟩ | ⟨rfl, -⟩
    · exact absurd hlt (by decide +kernel)
    · exact absurd hlt (by decide +kernel)
    · exact absurd hk (Nat.lt_irrefl 2)
  · intro i y fy delta h
    rcases lt_of_rootless_longStep h with ⟨-, hlt⟩ | ⟨-, hlt⟩ | ⟨-, hlt⟩
    · exact absurd hlt (by decide +kernel)
    · exact absurd hlt (by decide +kernel)
    · exact absurd hlt (by decide +kernel)

end Solver

end NewtonMethod
