/-
NewtonMethod/Proofs/Failure.lean

Why a search ends without a root.

A search that finds no root stops at one of its iterates.  The causes are listed
once for a step (`StepStops`) and once for a point of a search (`StopsAt`):

    the function has no finite value there                 any point
    the point is rejected and the budget is used up        the last point
    the point is rejected and the step from it stops       a point before the last

`advance_eq_error_iff` says that a step stops for these causes only, and
`search_eq_error_iff` that a search does: it stops at the first iterate that
has a cause, all iterates before being rejected.  The induction is on the budget
that is left, as for success.  `report_eq_error_iff` adds the checks of the
start; `Tests` and `StepsFrom` collect what is then known of the iterate.
-/
import NewtonMethod.Proofs.Iterates

namespace NewtonMethod.Solver

open Run PointSpace

variable {X α J : Type} [Arithmetic α] [PointSpace X α J] {s : Solver X α J}

/-! ### A step that stops -/

/-- The step from `x`, where the function has the value `fx`, ends with `stop` in iteration `i`. -/
inductive StepStops (s : Solver X α J) (i : Nat) (x fx : X) : Stop α → Prop
  | slopeFault {f : ShapeFault}
      (slope : (s.derivative.at s.function x fx).outcome = .error (.fault f)) :
      StepStops s i x fx (.fault f)
  | slopeNotFinite {jacobian : J}
      (slope : (s.derivative.at s.function x fx).outcome = .ok jacobian)
      (slope_not_finite : isFiniteDerivative X jacobian = false) :
      StepStops s i x fx (.failure (.nonFiniteValue .derivative i (coordinates x)))
  | singular {jacobian : J}
      (slope : (s.derivative.at s.function x fx).outcome = .ok jacobian)
      (slope_finite : isFiniteDerivative X jacobian = true)
      (refused : solveLinear jacobian fx s.config.singularityTolerance = .error .singular) :
      StepStops s i x fx (.failure (.singularDerivative i (coordinates x)))
  | shape {jacobian : J} {rows cols residual : Nat}
      (slope : (s.derivative.at s.function x fx).outcome = .ok jacobian)
      (slope_finite : isFiniteDerivative X jacobian = true)
      (refused : solveLinear jacobian fx s.config.singularityTolerance
        = .error (.shape rows cols residual)) :
      StepStops s i x fx (.failure (.dimensionMismatch rows cols residual))
  | moveFault {jacobian : J} {delta : X} {f : ShapeFault}
      (slope : (s.derivative.at s.function x fx).outcome = .ok jacobian)
      (slope_finite : isFiniteDerivative X jacobian = true)
      (solved : solveLinear jacobian fx s.config.singularityTolerance = .ok delta)
      (moved : difference x (s.clamped delta) = .error f) :
      StepStops s i x fx (.fault f)
  | overflow {jacobian : J} {delta next : X}
      (slope : (s.derivative.at s.function x fx).outcome = .ok jacobian)
      (slope_finite : isFiniteDerivative X jacobian = true)
      (solved : solveLinear jacobian fx s.config.singularityTolerance = .ok delta)
      (moved : difference x (s.clamped delta) = .ok next)
      (not_finite : isFinite (s.clamped delta) = false ∨ isFinite next = false) :
      StepStops s i x fx (.failure (.diverged i (coordinates x)))

section Step

variable {i : Nat} {x fx : X} {stop : Stop α}

theorem derivativeAt_eq_error_iff :
    (s.derivativeAt i x fx).outcome = .error stop
      ↔ (∃ f, (s.derivative.at s.function x fx).outcome = .error (.fault f) ∧ stop = .fault f)
        ∨ ∃ jacobian, (s.derivative.at s.function x fx).outcome = .ok jacobian
            ∧ isFiniteDerivative X jacobian = false
            ∧ stop = .failure (.nonFiniteValue .derivative i (coordinates x)) := by
  rw [derivativeAt, bind_eq_error_iff]
  constructor
  · rintro (hslope | ⟨jacobian, hslope, h⟩)
    · rcases stop with f | e
      · exact .inl ⟨f, hslope, rfl⟩
      · exact absurd hslope (onlyFaults_at s.derivative s.function x fx e)
    · split at h
      next => cases h
      next hfin =>
        obtain rfl := Except.error.inj h
        exact .inr ⟨jacobian, hslope, Bool.eq_false_iff.mpr hfin, rfl⟩
  · rintro (⟨f, hslope, rfl⟩ | ⟨jacobian, hslope, hfin, rfl⟩)
    · exact .inl hslope
    · refine .inr ⟨jacobian, hslope, ?_⟩
      rw [if_neg (Bool.eq_false_iff.mp hfin)]
      rfl

omit [Arithmetic α] in
theorem solution_eq_error_iff {jacobian : J} :
    (s.solution i x fx jacobian).outcome = .error stop
      ↔ (solveLinear jacobian fx s.config.singularityTolerance = .error .singular
          ∧ stop = .failure (.singularDerivative i (coordinates x)))
        ∨ ∃ rows cols residual, solveLinear jacobian fx s.config.singularityTolerance
              = .error (.shape rows cols residual)
            ∧ stop = .failure (.dimensionMismatch rows cols residual) := by
  rw [solution]
  rcases solveLinear jacobian fx s.config.singularityTolerance with (_ | ⟨rows, cols, residual⟩) | d
  · simp [@eq_comm _ stop]
  · simp [@eq_comm _ stop]
  · simp

omit [Arithmetic α] in
theorem move_eq_error_iff {delta : X} :
    (move i x delta : Run α X).outcome = .error stop
      ↔ (∃ f, difference x delta = .error f ∧ stop = .fault f)
        ∨ ∃ next, difference x delta = .ok next
            ∧ (isFinite delta = false ∨ isFinite next = false)
            ∧ stop = .failure (.diverged i (coordinates x)) := by
  rw [move, bind_eq_error_iff]
  constructor
  · rintro (h | ⟨next, hmove, h⟩)
    · exact .inl (ofExcept_eq_error_iff.mp h)
    · split at h
      next => cases h
      next hfin =>
        obtain rfl := Except.error.inj h
        refine .inr ⟨next, ofExcept_eq_ok_iff.mp hmove, ?_, rfl⟩
        rwa [Bool.not_eq_true, Bool.and_eq_false_iff] at hfin
  · rintro (h | ⟨next, hmove, hfin, rfl⟩)
    · exact .inl (ofExcept_eq_error_iff.mpr h)
    · refine .inr ⟨next, ofExcept_eq_ok_iff.mpr hmove, ?_⟩
      rw [if_neg (Bool.eq_false_iff.mp (Bool.and_eq_false_iff.mpr hfin))]
      rfl

/-- A step stops for one of the listed causes, and each of them stops it. -/
theorem advance_eq_error_iff :
    (s.advance i x fx).outcome = .error stop ↔ s.StepStops i x fx stop := by
  -- the derivative, the linear equation, the clamp and the move, each after success of the former
  simp only [advance, bind_eq_error_iff, derivativeAt_eq_error_iff, derivativeAt_eq_ok_iff,
    solution_eq_error_iff, solution_eq_ok_iff, outcome_clamp, move_eq_error_iff]
  constructor
  · rintro ((⟨f, hslope, rfl⟩ | ⟨jacobian, hslope, hfin, rfl⟩) | ⟨jacobian, ⟨hslope, hfin⟩, h⟩)
    · exact .slopeFault hslope
    · exact .slopeNotFinite hslope hfin
    · rcases h with (⟨hsolve, rfl⟩ | ⟨rows, cols, residual, hsolve, rfl⟩) | ⟨delta, hsolve, h⟩
      · exact .singular hslope hfin hsolve
      · exact .shape hslope hfin hsolve
      · rcases h with h | ⟨step, hstep, h⟩
        · cases h
        · obtain rfl := Except.ok.inj hstep
          rcases h with ⟨f, hmove, rfl⟩ | ⟨next, hmove, hbad, rfl⟩
          · exact .moveFault hslope hfin hsolve hmove
          · exact .overflow hslope hfin hsolve hmove hbad
  · intro h
    cases h with
    | slopeFault hslope => exact .inl (.inl ⟨_, hslope, rfl⟩)
    | slopeNotFinite hslope hfin => exact .inl (.inr ⟨_, hslope, hfin, rfl⟩)
    | singular hslope hfin hsolve =>
      exact .inr ⟨_, ⟨hslope, hfin⟩, .inl (.inl ⟨hsolve, rfl⟩)⟩
    | shape hslope hfin hsolve =>
      exact .inr ⟨_, ⟨hslope, hfin⟩, .inl (.inr ⟨_, _, _, hsolve, rfl⟩)⟩
    | moveFault hslope hfin hsolve hmove =>
      exact .inr ⟨_, ⟨hslope, hfin⟩, .inr ⟨_, hsolve, .inr ⟨_, rfl, .inl ⟨_, hmove, rfl⟩⟩⟩⟩
    | overflow hslope hfin hsolve hmove hbad =>
      exact .inr ⟨_, ⟨hslope, hfin⟩,
        .inr ⟨_, hsolve, .inr ⟨_, rfl, .inr ⟨_, hmove, hbad, rfl⟩⟩⟩⟩

end Step

/-! ### A point that a search stops at -/

/-- The search stops at `x`, its `i`-th point, with `stop`. -/
inductive StopsAt (s : Solver X α J) (i : Nat) (x : X) : Stop α → Prop
  | fault {f : ShapeFault} (value : s.function x = .error f) : StopsAt s i x (.fault f)
  | notFinite {fx : X} (value : s.function x = .ok fx) (value_not_finite : isFinite fx = false) :
      StopsAt s i x (.failure (.nonFiniteValue .function i (coordinates x)))
  | exhausted {r : α} (residual : s.HasResidual x r)
      (rejected : Arithmetic.le r s.config.tolerance = false)
      (last : i + 1 = s.config.maxIterations) :
      StopsAt s i x
        (.failure (.maxIterationsExceeded s.config.maxIterations r (coordinates x)))
  | step {fx : X} {stop : Stop α} (value : s.function x = .ok fx)
      (value_finite : isFinite fx = true)
      (rejected : Arithmetic.le (norm fx) s.config.tolerance = false)
      (more : i + 1 < s.config.maxIterations) (stops : s.StepStops i x fx stop) :
      StopsAt s i x stop

section Search

variable {i n : Nat} {x : X} {stop : Stop α}

/-- A search that has the budget to go on does not stop at a point that it rejects and that has an
update. -/
theorem StopsAt.not_updates {y : X} (h : s.StopsAt i x stop) (hreject : s.Rejects x)
    (hmore : i + 1 < s.config.maxIterations) : ¬s.Updates x y := by
  intro hxy
  obtain ⟨_, ⟨fx, hf, hfin, -⟩, -⟩ := hreject
  cases h with
  | fault hf' => cases hf.symm.trans hf'
  | notFinite hf' hbad =>
    obtain rfl := Except.ok.inj (hf.symm.trans hf')
    cases hfin.symm.trans hbad
  | exhausted _ _ hlast => omega
  | step hf' _ _ _ hstops =>
    cases (hxy.advance hf' i).symm.trans (advance_eq_error_iff.mpr hstops)

theorem turn_eq_error_iff {next : X → α → Run α (Report X α)} :
    (s.turn i x next).outcome = .error stop
      ↔ (∃ f, s.function x = .error f ∧ stop = .fault f)
        ∨ (∃ fx, s.function x = .ok fx ∧ isFinite fx = false
            ∧ stop = .failure (.nonFiniteValue .function i (coordinates x)))
        ∨ ∃ fx, s.function x = .ok fx ∧ isFinite fx = true
            ∧ Arithmetic.le (norm fx) s.config.tolerance = false
            ∧ (next fx (norm fx)).outcome = .error stop := by
  rw [outcome_turn]
  rcases s.function x with f | fx
  · simp [@eq_comm _ stop]
  · rcases hfin : isFinite fx with - | -
    · simp [hfin, @eq_comm _ stop]
    · rcases hle : Arithmetic.le (norm fx) s.config.tolerance with - | - <;>
        simp [hfin, hle]

/-- At its last point a search stops exactly for a cause of that point. -/
theorem search_zero_eq_error_iff (hi : i + 1 = s.config.maxIterations) :
    (s.search 0 i x).outcome = .error stop ↔ s.StopsAt i x stop := by
  rw [search_zero, turn_eq_error_iff]
  constructor
  · rintro (⟨f, hf, rfl⟩ | ⟨fx, hf, hfin, rfl⟩ | ⟨fx, hf, hfin, hle, h⟩)
    · exact .fault hf
    · exact .notFinite hf hfin
    · obtain rfl := Except.error.inj h
      exact .exhausted ⟨fx, hf, hfin, rfl⟩ hle hi
  · intro h
    cases h with
    | fault hf => exact .inl ⟨_, hf, rfl⟩
    | notFinite hf hfin => exact .inr (.inl ⟨_, hf, hfin, rfl⟩)
    | exhausted hr hle _ =>
      obtain ⟨fx, hf, hfin, rfl⟩ := hr
      exact .inr (.inr ⟨fx, hf, hfin, hle, rfl⟩)
    | step _ _ _ hmore _ => omega

/-- Before its last point a search stops there, or it rejects the point and stops later. -/
theorem search_succ_eq_error_iff (hi : i + 1 < s.config.maxIterations) :
    (s.search (n + 1) i x).outcome = .error stop
      ↔ s.StopsAt i x stop
        ∨ (s.Rejects x ∧ ∃ y, s.Updates x y ∧ (s.search n (i + 1) y).outcome = .error stop) := by
  rw [search_succ, turn_eq_error_iff]
  constructor
  · rintro (⟨f, hf, rfl⟩ | ⟨fx, hf, hfin, rfl⟩ | ⟨fx, hf, hfin, hle, h⟩)
    · exact .inl (.fault hf)
    · exact .inl (.notFinite hf hfin)
    · -- the step stops, or the search does after it
      rcases bind_eq_error_iff.mp h with h | ⟨y, hadvance, h⟩
      · exact .inl (.step hf hfin hle hi (advance_eq_error_iff.mp h))
      · have hupdate : s.Updates x y := (updates_iff i).mpr ⟨fx, hf, hfin, hadvance⟩
        exact .inr ⟨⟨norm fx, ⟨fx, hf, hfin, rfl⟩, hle⟩, y, hupdate, h⟩
  · rintro (h | ⟨⟨r, ⟨fx, hf, hfin, rfl⟩, hle⟩, y, hupdate, h⟩)
    · cases h with
      | fault hf => exact .inl ⟨_, hf, rfl⟩
      | notFinite hf hfin => exact .inr (.inl ⟨_, hf, hfin, rfl⟩)
      | exhausted _ _ hlast => omega
      | step hf hfin hle _ hstops =>
        exact .inr (.inr ⟨_, hf, hfin, hle,
          bind_eq_error_iff.mpr (.inl (advance_eq_error_iff.mpr hstops))⟩)
    · exact .inr (.inr ⟨fx, hf, hfin, hle,
        bind_eq_error_iff.mpr (.inr ⟨y, hupdate.advance hf i, h⟩)⟩)

/-- A search with `n` points after `x` stops at the first iterate that has a cause, the iterates
before being rejected. -/
theorem search_eq_error_iff (hn : i + n + 1 = s.config.maxIterations) :
    (s.search n i x).outcome = .error stop
      ↔ ∃ k ≤ n, ∃ y, s.Iterates x k y ∧ s.RejectsBefore x k ∧ s.StopsAt (i + k) y stop := by
  induction n generalizing i x with
  | zero =>
    rw [search_zero_eq_error_iff hn]
    constructor
    · intro h
      exact ⟨0, Nat.le_refl _, x, .start x, rejectsBefore_zero s x, h⟩
    · rintro ⟨k, hk, y, hy, -, h⟩
      obtain rfl : k = 0 := Nat.le_zero.mp hk
      obtain rfl := iterates_zero_iff.mp hy
      exact h
  | succ n ih =>
    rw [search_succ_eq_error_iff (by omega)]
    constructor
    · rintro (h | ⟨hreject, y, hxy, h⟩)
      · exact ⟨0, Nat.zero_le _, x, .start x, rejectsBefore_zero s x, h⟩
      · -- the iterates from `y` are those from `x`, counted one less
        obtain ⟨k, hk, z, hyz, hbefore, h⟩ := (ih (by omega)).mp h
        refine ⟨k + 1, Nat.succ_le_succ hk, z, .next hxy hyz, ?_, ?_⟩
        · exact (rejectsBefore_succ_iff hxy).mpr ⟨hreject, hbefore⟩
        · rwa [Nat.add_assoc, Nat.add_comm 1 k] at h
    · rintro ⟨k, hk, z, hz, hbefore, h⟩
      rcases k with - | k
      · obtain rfl := iterates_zero_iff.mp hz
        exact .inl h
      · obtain _ | ⟨hxy, hyz⟩ := hz
        obtain ⟨hreject, hbefore⟩ := (rejectsBefore_succ_iff hxy).mp hbefore
        refine .inr ⟨hreject, _, hxy, (ih (by omega)).mpr ⟨k, by omega, z, hyz, hbefore, ?_⟩⟩
        rwa [Nat.add_assoc, Nat.add_comm 1 k]

end Search

/-! ### The whole search -/

/-- The search from `x` tests `y`, which is its `i`-th iterate. -/
structure Tests (s : Solver X α J) (x : X) (i : Nat) (y : X) : Prop where
  valid : s.config.validate = .ok ()
  start_finite : isFinite x = true
  iterate : s.Iterates x i y
  finite : isFinite y = true
  rejected_before : s.RejectsBefore x i
  within_budget : i < s.config.maxIterations

/-- The search from `x` tests its `i`-th iterate `y`, where the function has the value `fy`, rejects
it and has the budget to step on from it. -/
structure StepsFrom (s : Solver X α J) (x : X) (i : Nat) (y fy : X) : Prop
    extends s.Tests x i y where
  value : s.function y = .ok fy
  value_finite : isFinite fy = true
  rejected : Arithmetic.le (norm fy) s.config.tolerance = false
  more : i + 1 < s.config.maxIterations

section Report

variable {i : Nat} {x : X} {stop : Stop α}

/-- A search tests all iterates before one that it tests. -/
theorem Tests.exists_tests {k m : Nat} {y : X} (hy : s.Tests x k y) (hm : m ≤ k) :
    ∃ z, s.Tests x m z := by
  rcases Nat.lt_or_eq_of_le hm with hm | rfl
  · obtain ⟨z, hz, -⟩ := hy.rejected_before m hm
    exact ⟨z, hy.valid, hy.start_finite, hz, hz.isFinite hy.start_finite,
      fun l hl => hy.rejected_before l (hl.trans hm), hm.trans hy.within_budget⟩
  · exact ⟨y, hy⟩

/-- A search steps on from each iterate before one that it tests. -/
theorem Tests.exists_stepsFrom {k m : Nat} {y : X} (hy : s.Tests x k y) (hm : m < k) :
    ∃ z fz, s.StepsFrom x m z fz := by
  obtain ⟨z, hz⟩ := hy.exists_tests (Nat.le_of_lt hm)
  -- an iterate before a tested one has been rejected
  obtain ⟨z', hz', _, ⟨fz, hf, hfin, rfl⟩, hreject⟩ := hy.rejected_before m hm
  obtain rfl := hz'.unique hz.iterate
  exact ⟨z', fz, hz, hf, hfin, hreject, Nat.lt_of_le_of_lt hm hy.within_budget⟩

/-- A start is refused for the configuration first and for its own entries second. -/
theorem checkStart_eq_error_iff :
    (s.checkStart x).outcome = .error stop
      ↔ (∃ fault, s.config.validate = .error fault ∧ stop = .failure (.invalidConfig fault))
        ∨ (s.config.validate = .ok () ∧ isFinite x = false
            ∧ stop = .failure (.nonFiniteValue .initialGuess 0 (coordinates x))) := by
  rw [checkStart]
  rcases s.config.validate with fault | -
  · simp [@eq_comm _ stop]
  · rcases isFinite x with - | - <;> simp [@eq_comm _ stop]

/-- A search stops at its start, for want of a budget, or at a point that it tests. -/
theorem report_eq_error_iff :
    (s.report x).outcome = .error stop
      ↔ (s.checkStart x).outcome = .error stop
        ∨ (s.config.validate = .ok () ∧ isFinite x = true ∧ s.config.maxIterations = 0
            ∧ stop = .failure (.maxIterationsExceeded 0 Arithmetic.nan (coordinates x)))
        ∨ ∃ i y, s.Tests x i y ∧ s.StopsAt i y stop := by
  constructor
  · intro h
    rw [report] at h
    rcases bind_eq_error_iff.mp h with h | ⟨⟨⟩, hstart, h⟩
    · exact .inl h
    · obtain ⟨hvalid, hfin⟩ := checkStart_eq_ok_iff.mp hstart
      rcases hmax : s.config.maxIterations with - | n
      · rw [hmax] at h
        obtain rfl := Except.error.inj h
        rw [hmax]
        exact .inr (.inl ⟨hvalid, hfin, rfl, rfl⟩)
      · rw [hmax] at h
        -- the search counts from zero, so the number of a point is that of its iterate
        obtain ⟨k, hk, y, hy, hbefore, h⟩ := (search_eq_error_iff (by omega)).mp h
        rw [Nat.zero_add] at h
        exact .inr (.inr ⟨k, y, ⟨hvalid, hfin, hy, hy.isFinite hfin, hbefore, by omega⟩, h⟩)
  · rintro (h | ⟨hvalid, hfin, hmax, rfl⟩ | ⟨i, y, htest, h⟩)
    · exact bind_eq_error_iff.mpr (.inl h)
    · rw [report_eq_exhausted (checkStart_eq_pure hvalid hfin) hmax, exhausted, hmax]
      rfl
    · obtain ⟨n, hn⟩ := Nat.exists_eq_succ_of_ne_zero (Nat.ne_zero_of_lt htest.within_budget)
      have hi := htest.within_budget
      rw [report_eq_search (checkStart_eq_pure htest.valid htest.start_finite) hn]
      refine (search_eq_error_iff (by omega)).mpr
        ⟨i, by omega, y, htest.iterate, htest.rejected_before, ?_⟩
      rwa [Nat.zero_add]

/-- A search that finds a root ends at an iterate that it tests and accepts. -/
theorem report_eq_ok_iff_tests {found : Report X α} :
    (s.report x).outcome = .ok found
      ↔ s.Tests x found.iterations found.root ∧ s.Accepts found.root found.residualNorm := by
  constructor
  · intro h
    obtain ⟨⟨⟩, hstart, h⟩ := bind_eq_ok_iff.mp h
    obtain ⟨hvalid, hfin⟩ := checkStart_eq_ok_iff.mp hstart
    rcases hmax : s.config.maxIterations with - | n
    · rw [hmax] at h
      cases h
    · rw [hmax] at h
      obtain ⟨k, hk, hi, hroot, haccept, hbefore⟩ := search_eq_ok_iff.mp h
      rw [Nat.zero_add] at hi
      -- the iterate that is found is the last one that is tested
      subst hi
      exact ⟨⟨hvalid, hfin, hroot, hroot.isFinite hfin, hbefore, by omega⟩, haccept⟩
  · rintro ⟨htest, haccept⟩
    obtain ⟨n, hn⟩ := Nat.exists_eq_succ_of_ne_zero (Nat.ne_zero_of_lt htest.within_budget)
    have hi := htest.within_budget
    rw [report_eq_search (checkStart_eq_pure htest.valid htest.start_finite) hn]
    exact search_eq_ok_iff.mpr
      ⟨_, by omega, (Nat.zero_add _).symm, htest.iterate, haccept, htest.rejected_before⟩

end Report

end NewtonMethod.Solver
