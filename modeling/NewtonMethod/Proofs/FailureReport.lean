/-
NewtonMethod/Proofs/FailureReport.lean

What a search reports when it ends without a root.

The error of a search belongs to one of its iterates.  For an exhausted search
that is the last iterate within the budget, and the residual norm is that of the
same iterate: `report_eq_maxIterationsExceeded_iff`.  That nothing is done after
its test is read off the journal, whose last lines are `lastLines`
(`lastLines_suffix_search`, by induction on the budget that is left).

Every other error stands for the first thing that went wrong at its iterate:
`report_hardStop_iff`, with one equivalence for each error.  The four that end a
step share the inversion `report_eq_stepFailure_iff`.
-/
import NewtonMethod.Proofs.Failure

namespace NewtonMethod

open Run PointSpace

/-- The error ends a step. -/
def SolveError.endsStep {α : Type} : SolveError α → Bool
  | nonFiniteValue .derivative _ _ => true
  | singularDerivative _ _ => true
  | dimensionMismatch _ _ _ => true
  | diverged _ _ => true
  | _ => false

namespace Solver

variable {X α J : Type} [Arithmetic α] [PointSpace X α J] {s : Solver X α J}

/-! ### An exhausted search -/

omit [Arithmetic α] in
theorem test_of_isFinite {i : Nat} {x fx : X} (hf : s.function x = .ok fx)
    (hfin : isFinite fx = true) :
    s.test i x = ⟨[.residual, .event (.residual i (norm fx))], .ok (fx, norm fx)⟩ := by
  have hvalue : evaluate (α := α) .residual s.function x = ⟨[.residual], .ok fx⟩ := by
    rw [evaluate, hf]
    rfl
  have hcheck : (checkResidual x fx (some i) i : Run α Unit) = pure () := if_pos hfin
  rw [test, hvalue, bind_of_ok rfl]
  dsimp only
  rw [hcheck]
  rfl

/-- The journal of a point that is rejected begins with its test. -/
theorem journal_turn {i : Nat} {x fx : X} (next : X → α → Run α (Report X α))
    (hf : s.function x = .ok fx) (hfin : isFinite fx = true)
    (hle : Arithmetic.le (norm fx) s.config.tolerance = false) :
    (s.turn i x next).journal
      = .residual :: .event (.residual i (norm fx)) :: (next fx (norm fx)).journal := by
  rw [turn, test_of_isFinite hf hfin, bind_of_ok rfl]
  dsimp only
  rw [if_neg (Bool.eq_false_iff.mp hle)]
  rfl

/-- The last lines of a search that is exhausted at its `i`-th point, whose residual is `r`: after
the test of that point nothing is done. -/
def lastLines (s : Solver X α J) (i : Nat) (r : α) : Journal α :=
  [.residual, .event (.residual i r), .event (.exhausted s.config.maxIterations r)]

/-- The journal of an exhausted search ends with the test of its last point. -/
theorem lastLines_suffix_search {n i m : Nat} {x : X} {r : α} {last : Array α}
    (hn : i + n + 1 = s.config.maxIterations)
    (h : (s.search n i x).outcome = .error (.failure (.maxIterationsExceeded m r last))) :
    s.lastLines (i + n) r <:+ (s.search n i x).journal := by
  -- only the last point can end the search this way
  induction n generalizing i x with
  | zero =>
    cases (search_zero_eq_error_iff hn).mp h with
    | exhausted hr hle _ =>
      obtain ⟨fx, hf, hfin, rfl⟩ := hr
      rw [search_zero, journal_turn _ hf hfin hle]
      exact List.suffix_refl _
    | step _ _ _ hmore _ => omega
  | succ n ih =>
    rcases (search_succ_eq_error_iff (by omega)).mp h with h | ⟨hreject, y, hxy, h⟩
    · cases h with
      | exhausted _ _ hlast => omega
      | step _ _ _ _ hstops => cases hstops
    · obtain ⟨_, ⟨fx, hf, hfin, rfl⟩, hle⟩ := hreject
      -- the last lines are those of the rest of the search
      have hrest : s.lastLines (i + (n + 1)) r <:+ (s.search n (i + 1) y).journal := by
        have := ih (by omega) h
        rwa [Nat.add_right_comm] at this
      rw [search_succ, journal_turn _ hf hfin hle, bind_of_ok (hxy.advance hf i)]
      exact (hrest.trans (List.suffix_append _ _)).trans (List.suffix_append [_, _] _)

/-- **An exhausted search reports a matching pair.**  A search ends for want of a budget exactly if
all iterates within the budget are rejected.  It then reports the last of them together with its own
residual norm, or the start and no residual if there is no budget at all, and the test of that
iterate is the last thing it does. -/
theorem report_eq_maxIterationsExceeded_iff (s : Solver X α J) (x : X) (n : Nat) (r : α)
    (last : Array α) :
    (s.report x).outcome = .error (.failure (.maxIterationsExceeded n r last))
      ↔ s.config.validate = .ok () ∧ isFinite x = true ∧ s.config.maxIterations = n
        ∧ ((n = 0 ∧ r = Arithmetic.nan ∧ last = coordinates x)
          ∨ ∃ m y, n = m + 1 ∧ s.Iterates x m y ∧ s.HasResidual y r ∧ last = coordinates y
              ∧ s.RejectsBefore x n ∧ s.lastLines m r <:+ (s.report x).journal) := by
  constructor
  · intro h
    rcases report_eq_error_iff.mp h with hstart | ⟨hvalid, hfin, hmax, hstop⟩ | ⟨i, y, htest, hstop⟩
    · rcases checkStart_eq_error_iff.mp hstart with ⟨_, -, hstop⟩ | ⟨-, -, hstop⟩
      · cases hstop
      · cases hstop
    · cases hstop
      exact ⟨hvalid, hfin, hmax, .inl ⟨rfl, rfl, rfl⟩⟩
    · obtain ⟨hvalid, hfin, hy, -, hbefore, -⟩ := htest
      cases hstop with
      | exhausted hr hle hlast =>
        -- the last point within the budget is rejected as those before it are
        have hall : s.RejectsBefore x (i + 1) :=
          rejectsBefore_succ_iff_last.mpr ⟨hbefore, y, hy, r, hr, hle⟩
        refine ⟨hvalid, hfin, rfl, .inr ⟨i, y, hlast.symm, hy, hr, rfl, hlast ▸ hall, ?_⟩⟩
        have hsearch : s.report x = s.search i 0 x :=
          report_eq_search (checkStart_eq_pure hvalid hfin) hlast.symm
        rw [hsearch] at h ⊢
        have hlines := lastLines_suffix_search (by omega) h
        rwa [Nat.zero_add] at hlines
      | step _ _ _ _ hstops => cases hstops
  · rintro ⟨hvalid, hfin, hmax, ⟨rfl, rfl, rfl⟩ | ⟨m, y, rfl, hy, hr, rfl, hbefore, -⟩⟩
    · exact report_eq_error_iff.mpr (.inr (.inl ⟨hvalid, hfin, hmax, rfl⟩))
    · obtain ⟨hbefore, z, hz, r', ⟨fz, hf, hffin, rfl⟩, hle⟩ :=
        rejectsBefore_succ_iff_last.mp hbefore
      -- the residual that is named is that of the last iterate, since there is one such iterate
      obtain rfl : z = y := hz.unique hy
      obtain ⟨fz', hf', -, rfl⟩ := hr
      obtain rfl : fz = fz' := Except.ok.inj (hf.symm.trans hf')
      have htest : s.Tests x m z :=
        ⟨hvalid, hfin, hz, hz.isFinite hfin, hbefore, by omega⟩
      rw [← hmax]
      exact report_eq_error_iff.mpr
        (.inr (.inr ⟨m, z, htest, .exhausted ⟨fz, hf, hffin, rfl⟩ hle hmax.symm⟩))

-- two residuals suffice for 2 and 3/2, of which neither is accepted
example : (Solver.report
      { rootOfTwo with config := { rootOfTwo.config with maxIterations := 2 } } 2).outcome
    = .error (.failure (.maxIterationsExceeded 2 (1 / 4) #[3 / 2])) := by decide +kernel

/-! ### A search that is stopped -/

/-- Only a step ends with such an error, and it is a step from a point that the search rejects. -/
theorem report_eq_stepFailure_iff {x : X} {e : SolveError α} (he : e.endsStep = true) :
    (s.report x).outcome = .error (.failure e)
      ↔ ∃ i y fy, s.StepsFrom x i y fy ∧ s.StepStops i y fy (.failure e) := by
  rw [report_eq_error_iff]
  constructor
  · rintro (hstart | ⟨-, -, -, hstop⟩ | ⟨i, y, htest, hstop⟩)
    · rcases checkStart_eq_error_iff.mp hstart with ⟨_, -, hstop⟩ | ⟨-, -, hstop⟩
      · cases hstop
        cases he
      · cases hstop
        cases he
    · cases hstop
      cases he
    · -- the test of a point has other errors
      cases hstop with
      | notFinite => cases he
      | exhausted => cases he
      | step hf hfin hle hmore hstops => exact ⟨i, y, _, ⟨htest, hf, hfin, hle, hmore⟩, hstops⟩
  · rintro ⟨i, y, fy, ⟨htest, hf, hfin, hle, hmore⟩, hstops⟩
    exact .inr (.inr ⟨i, y, htest, .step hf hfin hle hmore hstops⟩)

/-- The derivative at `y`, where the function has the value `fy`, is `jacobian`, which is finite. -/
def HasSlope (s : Solver X α J) (y fy : X) (jacobian : J) : Prop :=
  (s.derivative.at s.function y fy).outcome = .ok jacobian ∧ isFiniteDerivative X jacobian = true

section HardStops

variable {x : X} {i : Nat} {p : Array α}

theorem report_eq_startNotFinite_iff :
    (s.report x).outcome = .error (.failure (.nonFiniteValue .initialGuess i p))
      ↔ s.config.validate = .ok () ∧ isFinite x = false ∧ i = 0 ∧ p = coordinates x := by
  rw [report_eq_error_iff, checkStart_eq_error_iff]
  constructor
  · rintro ((⟨_, -, hstop⟩ | ⟨hvalid, hfin, hstop⟩) | ⟨-, -, -, hstop⟩ | ⟨j, y, -, hstop⟩)
    · cases hstop
    · cases hstop
      exact ⟨hvalid, hfin, rfl, rfl⟩
    · cases hstop
    · cases hstop with
      | step _ _ _ _ hstops => cases hstops
  · rintro ⟨hvalid, hfin, rfl, rfl⟩
    exact .inl (.inr ⟨hvalid, hfin, rfl⟩)

/-- A start that is not finite is refused before anything is evaluated. -/
theorem journal_report_of_startNotFinite (hvalid : s.config.validate = .ok ())
    (hfin : isFinite x = false) : (s.report x).journal = [.event .startNotFinite] := by
  have hstart : s.checkStart x
      = Run.fail .startNotFinite (.nonFiniteValue .initialGuess 0 (coordinates x)) := by
    rw [checkStart, hvalid]
    exact if_neg (Bool.eq_false_iff.mp hfin)
  rw [report, hstart]
  rfl

theorem report_eq_functionNotFinite_iff :
    (s.report x).outcome = .error (.failure (.nonFiniteValue .function i p))
      ↔ ∃ y fy, s.Tests x i y ∧ p = coordinates y ∧ s.function y = .ok fy
        ∧ isFinite fy = false := by
  rw [report_eq_error_iff, checkStart_eq_error_iff]
  constructor
  · rintro ((⟨_, -, hstop⟩ | ⟨-, -, hstop⟩) | ⟨-, -, -, hstop⟩ | ⟨j, y, htest, hstop⟩)
    · cases hstop
    · cases hstop
    · cases hstop
    · cases hstop with
      | notFinite hf hbad => exact ⟨y, _, htest, rfl, hf, hbad⟩
      | step _ _ _ _ hstops => cases hstops
  · rintro ⟨y, fy, htest, rfl, hf, hbad⟩
    exact .inr (.inr ⟨i, y, htest, .notFinite hf hbad⟩)

theorem report_eq_derivativeNotFinite_iff :
    (s.report x).outcome = .error (.failure (.nonFiniteValue .derivative i p))
      ↔ ∃ y fy jacobian, s.StepsFrom x i y fy ∧ p = coordinates y
        ∧ (s.derivative.at s.function y fy).outcome = .ok jacobian
        ∧ isFiniteDerivative X jacobian = false := by
  rw [report_eq_stepFailure_iff rfl]
  constructor
  · rintro ⟨j, y, fy, hstep, hstops⟩
    cases hstops with
    | slopeNotFinite hslope hbad => exact ⟨y, fy, _, hstep, rfl, hslope, hbad⟩
  · rintro ⟨y, fy, jacobian, hstep, rfl, hslope, hbad⟩
    exact ⟨i, y, fy, hstep, .slopeNotFinite hslope hbad⟩

/-- The derivative at a rejected iterate is finite, but the linear solve refuses it. -/
theorem report_eq_singularDerivative_iff :
    (s.report x).outcome = .error (.failure (.singularDerivative i p))
      ↔ ∃ y fy jacobian, s.StepsFrom x i y fy ∧ p = coordinates y ∧ s.HasSlope y fy jacobian
        ∧ solveLinear jacobian fy s.config.singularityTolerance = .error .singular := by
  rw [report_eq_stepFailure_iff rfl]
  constructor
  · rintro ⟨j, y, fy, hstep, hstops⟩
    cases hstops with
    | singular hslope hfin hsolve => exact ⟨y, fy, _, hstep, rfl, ⟨hslope, hfin⟩, hsolve⟩
  · rintro ⟨y, fy, jacobian, hstep, rfl, ⟨hslope, hfin⟩, hsolve⟩
    exact ⟨i, y, fy, hstep, .singular hslope hfin hsolve⟩

/-- This error does not name its iterate. -/
theorem report_eq_dimensionMismatch_iff {rows cols residual : Nat} :
    (s.report x).outcome = .error (.failure (.dimensionMismatch rows cols residual))
      ↔ ∃ j y fy jacobian, s.StepsFrom x j y fy ∧ s.HasSlope y fy jacobian
        ∧ solveLinear jacobian fy s.config.singularityTolerance
          = .error (.shape rows cols residual) := by
  rw [report_eq_stepFailure_iff rfl]
  constructor
  · rintro ⟨j, y, fy, hstep, hstops⟩
    cases hstops with
    | shape hslope hfin hsolve => exact ⟨j, y, fy, _, hstep, ⟨hslope, hfin⟩, hsolve⟩
  · rintro ⟨j, y, fy, jacobian, hstep, ⟨hslope, hfin⟩, hsolve⟩
    exact ⟨j, y, fy, hstep, .shape hslope hfin hsolve⟩

/-- The linear equation is solved, but the step or the next point is not finite. -/
theorem report_eq_diverged_iff :
    (s.report x).outcome = .error (.failure (.diverged i p))
      ↔ ∃ y fy jacobian delta next, s.StepsFrom x i y fy ∧ p = coordinates y
        ∧ s.HasSlope y fy jacobian
        ∧ solveLinear jacobian fy s.config.singularityTolerance = .ok delta
        ∧ difference y (s.clamped delta) = .ok next
        ∧ (isFinite (s.clamped delta) = false ∨ isFinite next = false) := by
  rw [report_eq_stepFailure_iff rfl]
  constructor
  · rintro ⟨j, y, fy, hstep, hstops⟩
    cases hstops with
    | overflow hslope hfin hsolve hmove hbad =>
      exact ⟨y, fy, _, _, _, hstep, rfl, ⟨hslope, hfin⟩, hsolve, hmove, hbad⟩
  · rintro ⟨y, fy, jacobian, delta, next, hstep, rfl, ⟨hslope, hfin⟩, hsolve, hmove, hbad⟩
    exact ⟨i, y, fy, hstep, .overflow hslope hfin hsolve hmove hbad⟩

end HardStops

/-- **An error describes the iterate that caused it.**  For every error of a search other than an
exhausted budget or an unacceptable configuration: what it names is the number and the coordinates
of an iterate that the search tests, and it arises exactly if at that iterate the first thing to go
wrong is the one it stands for.  A start that is not finite is refused before anything is
evaluated. -/
theorem report_hardStop_iff (s : Solver X α J) (x : X) (i : Nat) (p : Array α) :
    ((s.report x).outcome = .error (.failure (.nonFiniteValue .initialGuess i p))
      ↔ s.config.validate = .ok () ∧ isFinite x = false ∧ i = 0 ∧ p = coordinates x
        ∧ (s.report x).journal = [.event .startNotFinite])
    ∧ ((s.report x).outcome = .error (.failure (.nonFiniteValue .function i p))
      ↔ ∃ y fy, s.Tests x i y ∧ p = coordinates y ∧ s.function y = .ok fy
        ∧ isFinite fy = false)
    ∧ ((s.report x).outcome = .error (.failure (.nonFiniteValue .derivative i p))
      ↔ ∃ y fy jacobian, s.StepsFrom x i y fy ∧ p = coordinates y
        ∧ (s.derivative.at s.function y fy).outcome = .ok jacobian
        ∧ isFiniteDerivative X jacobian = false)
    ∧ ((s.report x).outcome = .error (.failure (.singularDerivative i p))
      ↔ ∃ y fy jacobian, s.StepsFrom x i y fy ∧ p = coordinates y ∧ s.HasSlope y fy jacobian
        ∧ solveLinear jacobian fy s.config.singularityTolerance = .error .singular)
    ∧ (∀ rows cols residual,
      (s.report x).outcome = .error (.failure (.dimensionMismatch rows cols residual))
      ↔ ∃ j y fy jacobian, s.StepsFrom x j y fy ∧ s.HasSlope y fy jacobian
        ∧ solveLinear jacobian fy s.config.singularityTolerance
          = .error (.shape rows cols residual))
    ∧ ((s.report x).outcome = .error (.failure (.diverged i p))
      ↔ ∃ y fy jacobian delta next, s.StepsFrom x i y fy ∧ p = coordinates y
        ∧ s.HasSlope y fy jacobian
        ∧ solveLinear jacobian fy s.config.singularityTolerance = .ok delta
        ∧ difference y (s.clamped delta) = .ok next
        ∧ (isFinite (s.clamped delta) = false ∨ isFinite next = false)) := by
  refine ⟨?_, report_eq_functionNotFinite_iff, report_eq_derivativeNotFinite_iff,
    report_eq_singularDerivative_iff, fun _ _ _ => report_eq_dimensionMismatch_iff,
    report_eq_diverged_iff⟩
  rw [report_eq_startNotFinite_iff]
  constructor
  · rintro ⟨hvalid, hfin, hi, hp⟩
    exact ⟨hvalid, hfin, hi, hp, journal_report_of_startNotFinite hvalid hfin⟩
  · rintro ⟨hvalid, hfin, hi, hp, -⟩
    exact ⟨hvalid, hfin, hi, hp⟩

end Solver

end NewtonMethod
