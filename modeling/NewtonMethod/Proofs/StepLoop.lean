/-
NewtonMethod/Proofs/StepLoop.lean

A search is its steps.

`Solver.step` is open to everyone: it checks the configuration and the point it
is given, and numbers its errors from zero.  A search takes its steps without
these checks and numbers them as it goes.  `Solver.searchByStep` is the search
that a user of `step` would write,

    check the configuration and the start, then for i = 0, 1, ...
      evaluate the function,
      stop if the value is not finite, passes the tolerance or is the last one,
      call step, adding i to the number in an error of that call

and `report_eq_searchByStep` says that it ends as `Solver.report` does.  The
checks of `step` cannot fail on the way, because every iterate from a finite
start is finite.
-/
import NewtonMethod.Proofs.Iterates

namespace NewtonMethod.Solver

open Run PointSpace

variable {X α J : Type} [Arithmetic α] [PointSpace X α J] {s : Solver X α J}

/-! ### The loop over steps -/

/-- The loop at its `i`-th point, taking its steps by calls of `step`. -/
def stepLoop (s : Solver X α J) (i : Nat) (hi : i < s.config.maxIterations) (x : X) :
    Except (Stop α) (Report X α) :=
  match s.function x with
  | .error f => .error (.fault f)
  | .ok fx =>
    if isFinite fx then
      if Arithmetic.le (norm fx) s.config.tolerance then .ok ⟨x, i, norm fx⟩
      else if h : i + 1 = s.config.maxIterations then
        .error (.failure
          (.maxIterationsExceeded s.config.maxIterations (norm fx) (coordinates x)))
      else
        match (s.step x (some fx)).outcome with
        | .ok next => s.stepLoop (i + 1) (by omega) next
        | .error stop => .error (stop.shift i)
    else .error (.failure (.nonFiniteValue .function i (coordinates x)))
  termination_by s.config.maxIterations - i

/-- The search from `x` as a loop over steps. -/
def searchByStep (s : Solver X α J) (x : X) : Except (Stop α) (Report X α) :=
  match s.config.validate with
  | .error fault => .error (.failure (.invalidConfig fault))
  | .ok () =>
    if isFinite x then
      if h : 0 < s.config.maxIterations then s.stepLoop 0 h x
      else .error (.failure (.maxIterationsExceeded 0 Arithmetic.nan (coordinates x)))
    else .error (.failure (.nonFiniteValue .initialGuess 0 (coordinates x)))

/-! ### The checks of a step -/

/-- A step whose checks pass is the step that a search takes. -/
theorem step_eq_advance {x fx : X} (hvalid : s.config.validate = .ok ())
    (hx : isFinite x = true) (hfx : isFinite fx = true) :
    s.step x (some fx) = s.advance 0 x fx := by
  have hresidual : (checkResidual x fx none 0 : Run α Unit) = pure () := if_pos hfx
  rw [step, checkStart_eq_pure hvalid hx]
  show (checkResidual x fx none 0 >>= fun _ => s.advance 0 x fx) = _
  rw [hresidual, pure_bind']

/-- From a point that passes the checks, calls of `step` lead to its update and nowhere else. -/
theorem updates_iff_step {x y : X} (hvalid : s.config.validate = .ok ())
    (hx : isFinite x = true) :
    s.Updates x y ↔ ∃ fx, s.function x = .ok fx ∧ isFinite fx = true
      ∧ (s.step x (some fx)).outcome = .ok y := by
  rw [updates_iff 0]
  constructor
  · rintro ⟨fx, hf, hfx, h⟩
    rw [← step_eq_advance hvalid hx hfx] at h
    exact ⟨fx, hf, hfx, h⟩
  · rintro ⟨fx, hf, hfx, h⟩
    rw [step_eq_advance hvalid hx hfx] at h
    exact ⟨fx, hf, hfx, h⟩

/-! ### The outcome of a step -/

/-- The step from `x` is computed, from the value `fx` of the function there. -/
structure BeginsStep (s : Solver X α J) (x : X) (given : Option X) (fx : X) : Prop where
  valid : s.config.validate = .ok ()
  start_finite : isFinite x = true
  value : given = some fx ∨ given = none ∧ s.function x = .ok fx
  value_finite : isFinite fx = true

/-- A step that is computed ends as the step of a search does. -/
theorem BeginsStep.outcome_eq {x fx : X} {given : Option X} (h : s.BeginsStep x given fx) :
    (s.step x given).outcome = (s.advance 0 x fx).outcome := by
  obtain ⟨hvalid, hx, rfl | ⟨rfl, hf⟩, hfin⟩ := h
  · rw [step_eq_advance hvalid hx hfin]
  · have hresidual : (checkResidual x fx none 0 : Run α Unit) = pure () := if_pos hfin
    rw [step, checkStart_eq_pure hvalid hx, pure_bind']
    dsimp only
    rw [outcome_bind, outcome_evaluate, hf]
    show (checkResidual x fx none 0 >>= fun _ => s.advance 0 x fx).outcome = _
    rw [hresidual, pure_bind']

theorem step_eq_ok_iff {x y : X} {given : Option X} :
    (s.step x given).outcome = .ok y
      ↔ ∃ fx, s.BeginsStep x given fx ∧ (s.advance 0 x fx).outcome = .ok y := by
  constructor
  · intro h
    obtain ⟨⟨⟩, hstart, h⟩ := bind_eq_ok_iff.mp h
    obtain ⟨hvalid, hx⟩ := checkStart_eq_ok_iff.mp hstart
    obtain ⟨fx, hvalue, h⟩ : ∃ fx, (given = some fx ∨ given = none ∧ s.function x = .ok fx)
        ∧ (checkResidual x fx none 0 >>= fun _ => s.advance 0 x fx).outcome = .ok y := by
      rcases given with - | value
      · obtain ⟨fx, hf, h⟩ := bind_eq_ok_iff.mp h
        rw [outcome_evaluate] at hf
        exact ⟨fx, .inr ⟨rfl, ofExcept_eq_ok_iff.mp hf⟩, h⟩
      · obtain ⟨fx, hfx, h⟩ := bind_eq_ok_iff.mp h
        exact ⟨fx, .inl (congrArg some (Except.ok.inj hfx)), h⟩
    obtain ⟨⟨⟩, hresidual, h⟩ := bind_eq_ok_iff.mp h
    refine ⟨fx, ⟨hvalid, hx, hvalue, ?_⟩, h⟩
    by_contra hbad
    rw [checkResidual, if_neg hbad] at hresidual
    cases hresidual
  · rintro ⟨fx, hbegins, h⟩
    exact hbegins.outcome_eq.trans h

theorem Updates.step_eq_ok {x y : X} (h : s.Updates x y) (hvalid : s.config.validate = .ok ())
    (hx : isFinite x = true) : (s.step x none).outcome = .ok y := by
  obtain ⟨fx, hf, hfin, hadvance⟩ := (updates_iff 0).mp h
  exact step_eq_ok_iff.mpr ⟨fx, ⟨hvalid, hx, .inr ⟨rfl, hf⟩, hfin⟩, hadvance⟩

/-- `k` calls of `step` lead from one point to another, whether or not they are given values. -/
inductive StepsTo (s : Solver X α J) : X → Nat → X → Prop
  | start (x : X) : StepsTo s x 0 x
  | next {x y z : X} {given : Option X} {k : Nat} :
    (s.step x given).outcome = .ok y → StepsTo s y k z → StepsTo s x (k + 1) z

/-- The iterates of a search can be reached by calls of `step`. -/
theorem Iterates.stepsTo {x y : X} {k : Nat} (h : s.Iterates x k y)
    (hvalid : s.config.validate = .ok ()) (hx : PointSpace.isFinite x = true) :
    s.StepsTo x k y := by
  induction h with
  | start x => exact .start x
  | next hxy _ ih =>
    have hy := (Iterates.next hxy (.start _)).isFinite hx
    exact .next (hxy.step_eq_ok hvalid hx) (ih hy)

/-! ### Agreement -/

/-- From a finite point on, a search and the loop over steps end alike. -/
theorem search_eq_stepLoop {n i : Nat} {x : X} (hi : i < s.config.maxIterations)
    (hn : i + n + 1 = s.config.maxIterations) (hvalid : s.config.validate = .ok ())
    (hx : isFinite x = true) : (s.search n i x).outcome = s.stepLoop i hi x := by
  induction n generalizing i x with
  | zero =>
    have hlast : i + 1 = s.config.maxIterations := hn
    rw [search_zero, outcome_turn, stepLoop]
    simp only [dif_pos hlast]
    rfl
  | succ n ih =>
    have hnext : i + 1 < s.config.maxIterations := by omega
    rw [search_succ, outcome_turn, stepLoop]
    simp only [dif_neg hnext.ne]
    rcases s.function x with f | fx
    · rfl
    · dsimp only
      by_cases hfx : isFinite fx = true
      · -- the step of the search is the step of the loop, numbered `i`
        have hlater : (s.advance i x fx).outcome
            = (s.advance 0 x fx).outcome.mapError (Stop.shift i) := by
          have h := later_advance s i 0 x fx
          rwa [Nat.zero_add] at h
        rw [if_pos hfx, if_pos hfx, step_eq_advance hvalid hx hfx, outcome_bind, hlater]
        rcases hadvance : (s.advance 0 x fx).outcome with stop | y
        · rfl
        · obtain ⟨_, _, -, -, -, -, -, hfin⟩ := advance_eq_ok_iff.mp hadvance
          have hrest : (s.search n (i + 1) y).outcome = s.stepLoop (i + 1) hnext y :=
            ih hnext (by omega) hfin
          exact congrArg _ hrest
      · rw [if_neg hfx, if_neg hfx]

/-- **A search is its steps.**  `report` ends as the loop over calls of `step` does.  Once the
start has passed the checks, so does every iterate: the points that the calls lead to are the
iterates, and no call in the loop can fail for its configuration or its starting point. -/
theorem report_eq_searchByStep (s : Solver X α J) (x : X) :
    (s.report x).outcome = s.searchByStep x
      ∧ ∀ k y, s.checkStart x = pure () → s.Iterates x k y →
          s.checkStart y = pure ()
          ∧ ∀ z, s.Updates y z ↔ ∃ fy, s.function y = .ok fy ∧ isFinite fy = true
              ∧ (s.step y (some fy)).outcome = .ok z := by
  constructor
  · rw [searchByStep]
    rcases hvalid : s.config.validate with fault | ⟨⟩
    · rw [report, checkStart, hvalid]
      rfl
    · dsimp only
      by_cases hx : isFinite x = true
      · have hstart := checkStart_eq_pure hvalid hx
        rw [if_pos hx]
        by_cases hpos : 0 < s.config.maxIterations
        · obtain ⟨n, hn⟩ := Nat.exists_eq_succ_of_ne_zero (Nat.ne_zero_of_lt hpos)
          rw [dif_pos hpos, report_eq_search hstart hn]
          exact search_eq_stepLoop hpos (by omega) hvalid hx
        · have hzero : s.config.maxIterations = 0 := Nat.eq_zero_of_not_pos hpos
          rw [dif_neg hpos, report_eq_exhausted hstart hzero, exhausted, hzero]
          rfl
      · rw [if_neg hx, report, checkStart, hvalid]
        dsimp only
        rw [if_neg hx]
        rfl
  · intro k y hstart hy
    have hok : (s.checkStart x).outcome = .ok () := by
      rw [hstart]
      rfl
    obtain ⟨hvalid, hx⟩ := checkStart_eq_ok_iff.mp hok
    have hfin : isFinite y = true := hy.isFinite hx
    exact ⟨checkStart_eq_pure hvalid hfin, fun z => updates_iff_step hvalid hfin⟩

theorem report_eq_searchByStep_rootOfTwo :
    rootOfTwo.checkStart 2 = pure () ∧ rootOfTwo.Iterates 2 1 (3 / 2)
      ∧ rootOfTwo.checkStart (3 / 2) = pure () := by
  have hstart : rootOfTwo.checkStart 2 = pure () :=
    checkStart_eq_pure (by decide +kernel) (by decide +kernel)
  have hupdate : rootOfTwo.Updates 2 (3 / 2) := by
    refine ⟨2, 4, 1 / 2, ?_, ?_, ?_, ?_, ?_, ?_, ?_, ?_⟩ <;> decide +kernel
  have hiterate : rootOfTwo.Iterates 2 1 (3 / 2) := .next hupdate (.start _)
  obtain ⟨-, hchecks⟩ := report_eq_searchByStep rootOfTwo 2
  exact ⟨hstart, hiterate, (hchecks 1 (3 / 2) hstart hiterate).1⟩

end NewtonMethod.Solver
