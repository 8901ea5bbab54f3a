/-
NewtonMethod/Proofs/DualQuestions.lean

What a search asks of a function over dual numbers.

A solver that is made from such a function `g` has no other access to what it
solves: a value is the first part of one evaluation of `g`, with the seed zero,
and a derivative the second part of another one, with the seed one.  So a search
evaluates `g` once where it tests an iterate and once more where it steps on:

    0       1       2       3       4    ..
    x₀      x₀+ε    x₁      x₁+ε    x₂   ..

(`Asks`).  That these evaluations are made, and no others, is said without looking
into the search, by comparing it with that of a solver made from another function:

* **They are all.**  A function that agrees with `g` there leaves the whole run as
  it is, with its journal (`report_of_agrees`).
* **Each of them is made.**  A function that agrees with `g` at the first ones and
  has no value at the next one makes the search end with its fault
  (`report_of_fault`).

Since their number is that of the tests and the requests in the journal
(`exists_asks_iff`), this is a count of the evaluations themselves.
-/
import NewtonMethod.Proofs.Counts
import NewtonMethod.Proofs.Parting

namespace NewtonMethod.Solver

open Run PointSpace

variable {α : Type} [Arithmetic α] {g g' : Dual α → Except ShapeFault (Dual α)} {c : Config α}
  {x y fy : α} {k m : ℕ} {d : Dual α}

/-- `Asks g c x m d`: the `m`-th evaluation of `g` that the search from `x` makes is that at `d`.
Values and derivatives take turns. -/
inductive Asks (g : Dual α → Except ShapeFault (Dual α)) (c : Config α) (x : α) :
    ℕ → Dual α → Prop
  | value {k : ℕ} {y : α} (tested : (ofDual g c).Tests x k y) : Asks g c x (2 * k) (.constant y)
  | slope {k : ℕ} {y fy : α} (stepped : (ofDual g c).StepsFrom x k y fy) :
      Asks g c x (2 * k + 1) (.variableAt y)

/-- `g'` has the values of `g` at the first `m` evaluations that the search makes. -/
def AgreesBefore (g g' : Dual α → Except ShapeFault (Dual α)) (c : Config α) (x : α) (m : ℕ) :
    Prop :=
  ∀ l < m, ∀ d, Asks g c x l d → g' d = g d

/-! ### The evaluations in order -/

/-- Values are even. -/
theorem asks_even_iff : Asks g c x (2 * k) d ↔ ∃ y, (ofDual g c).Tests x k y ∧ d = .constant y := by
  constructor
  · intro h
    generalize hm : 2 * k = m at h
    cases h with
    | @value k' y tested =>
      obtain rfl : k = k' := by omega
      exact ⟨y, tested, rfl⟩
    | slope => omega
  · rintro ⟨y, hy, rfl⟩
    exact .value hy

/-- Derivatives are odd. -/
theorem asks_odd_iff :
    Asks g c x (2 * k + 1) d ↔ ∃ y fy, (ofDual g c).StepsFrom x k y fy ∧ d = .variableAt y := by
  constructor
  · intro h
    generalize hm : 2 * k + 1 = m at h
    cases h with
    | value => omega
    | @slope k' y fy stepped =>
      obtain rfl : k = k' := by omega
      exact ⟨y, fy, stepped, rfl⟩
  · rintro ⟨y, fy, hy, rfl⟩
    exact .slope hy

/-- An evaluation is made at one dual number, since there is one iterate for it. -/
theorem Asks.unique {d' : Dual α} (h : Asks g c x m d) (h' : Asks g c x m d') : d = d' := by
  cases h with
  | value hy =>
    obtain ⟨y', hy', rfl⟩ := asks_even_iff.mp h'
    rw [hy.iterate.unique hy'.iterate]
  | slope hy =>
    obtain ⟨y', fy', hy', rfl⟩ := asks_odd_iff.mp h'
    rw [hy.iterate.unique hy'.iterate]

/-- There is an even evaluation for each test. -/
theorem exists_asks_even_iff :
    (∃ d, Asks g c x (2 * k) d) ↔ ∃ y, (ofDual g c).Tests x k y := by
  simp only [asks_even_iff]
  constructor
  · rintro ⟨-, y, hy, -⟩
    exact ⟨y, hy⟩
  · rintro ⟨y, hy⟩
    exact ⟨_, y, hy, rfl⟩

/-- There is an odd evaluation for each step. -/
theorem exists_asks_odd_iff :
    (∃ d, Asks g c x (2 * k + 1) d) ↔ ∃ y fy, (ofDual g c).StepsFrom x k y fy := by
  simp only [asks_odd_iff]
  constructor
  · rintro ⟨-, y, fy, hy, -⟩
    exact ⟨y, fy, hy⟩
  · rintro ⟨y, fy, hy⟩
    exact ⟨_, y, fy, hy, rfl⟩

/-- There are as many evaluations as there are tests and requests for a derivative. -/
theorem exists_asks_iff :
    (∃ d, Asks g c x m d) ↔ m < ((ofDual g c).report x).journal.residuals
      + ((ofDual g c).report x).journal.requests := by
  obtain ⟨hle, hle'⟩ := requests_le_residuals (ofDual g c) x
  -- tests and requests take turns, so their counts differ by one at most
  rcases Nat.even_or_odd' m with ⟨k, rfl | rfl⟩
  · rw [exists_asks_even_iff, exists_tests_iff]
    omega
  · rw [exists_asks_odd_iff, exists_stepsFrom_iff]
    omega

/-! ### Solvers that agree at a point -/

/-- A value needs one evaluation, with the seed zero. -/
theorem function_ofDual_eq (h : g' (.constant y) = g (.constant y)) :
    (ofDual g' c).function y = (ofDual g c).function y := congrArg (Except.map Dual.re) h

/-- A derivative needs one evaluation, with the seed one. -/
theorem at_ofDual_eq (h : g' (.variableAt y) = g (.variableAt y)) :
    (ofDual g' c).derivative.at (ofDual g' c).function y fy
      = (ofDual g c).derivative.at (ofDual g c).function y fy := by
  show (note .request >>= fun _ => evaluate .slope (Dual.slopeOf g') y)
    = note .request >>= fun _ => evaluate .slope (Dual.slopeOf g) y
  rw [evaluate, evaluate, Dual.slopeOf, Dual.slopeOf, h]

theorem advance_ofDual_eq (h : g' (.variableAt y) = g (.variableAt y)) :
    (ofDual g' c).advance m y fy = (ofDual g c).advance m y fy := by
  rw [advance, advance, derivativeAt, derivativeAt, at_ofDual_eq h]
  rfl

/-! ### Searches that agree for a while -/

theorem AgreesBefore.mono (h : AgreesBefore g g' c x m) (hk : k ≤ m) :
    AgreesBefore g g' c x k := fun l hl => h l (hl.trans_le hk)

/-- The iterates that are tested after evaluations on which the functions agree are the same. -/
theorem AgreesBefore.tests (h : AgreesBefore g g' c x (2 * k))
    (hy : (ofDual g c).Tests x k y) : (ofDual g' c).Tests x k y := by
  -- the value and the derivative at each iterate before are among these evaluations
  have hvalue : ∀ l < k, ∀ z, (ofDual g c).Iterates x l z →
      (ofDual g' c).function z = (ofDual g c).function z := by
    intro l hl z hz
    obtain ⟨z', hz'⟩ := hy.exists_tests hl.le
    obtain rfl := hz'.iterate.unique hz
    exact function_ofDual_eq (h (2 * l) (by omega) _ (.value hz'))
  have hstep : ∀ l < k, ∀ z z', (ofDual g c).Iterates x l z → (ofDual g c).Updates z z' →
      (ofDual g' c).Updates z z' := by
    intro l hl z z' hz hzz'
    obtain ⟨w, fw, hw⟩ := hy.exists_stepsFrom hl
    obtain rfl := hw.iterate.unique hz
    obtain ⟨fz, hf, hfin, hadvance⟩ := (updates_iff 0).mp hzz'
    refine (updates_iff 0).mpr ⟨fz, (hvalue l hl w hz).trans hf, hfin, ?_⟩
    rw [advance_ofDual_eq (h (2 * l + 1) (by omega) _ (.slope hw))]
    exact hadvance
  -- so both take the same updates up to `y`
  have hiterate : ∀ l ≤ k, ∀ z, (ofDual g c).Iterates x l z → (ofDual g' c).Iterates x l z := by
    intro l hl z hz
    exact hz.of_updates fun j hj => hstep j (hj.trans_le hl)
  refine ⟨hy.valid, hy.start_finite, hiterate k le_rfl y hy.iterate, hy.finite, ?_,
    hy.within_budget⟩
  intro l hl
  obtain ⟨z, hz, r, ⟨fz, hf, hfin, hr⟩, hreject⟩ := hy.rejected_before l hl
  exact ⟨z, hiterate l hl.le z hz, r, ⟨fz, (hvalue l hl z hz).trans hf, hfin, hr⟩, hreject⟩

/-- A function without a value at an evaluation that is made is found out there. -/
theorem report_of_fault (hd : Asks g c x m d) (h : AgreesBefore g g' c x m) {f : ShapeFault}
    (hf : g' d = .error f) : ((ofDual g' c).report x).outcome = .error (.fault f) := by
  cases hd with
  | @value k y hy =>
    -- the functions agree up to here, so the test of `y` is made with `g'` too
    have hvalue : (ofDual g' c).function y = .error f := congrArg (Except.map Dual.re) hf
    exact report_eq_error_iff.mpr (.inr (.inr ⟨k, y, h.tests hy, .fault hvalue⟩))
  | @slope k y fy hy =>
    -- the value at `y` is an evaluation before this one
    have hvalue : (ofDual g' c).function y = .ok fy :=
      (function_ofDual_eq (h (2 * k) (by omega) _ (.value hy.toTests))).trans hy.value
    have hslope : ((ofDual g' c).derivative.at (ofDual g' c).function y fy).outcome
        = .error (.fault f) := by
      have hfault : Dual.slopeOf g' y = .error f := congrArg (Except.map Dual.eps) hf
      show (note .request >>= fun _ => evaluate .slope (Dual.slopeOf g') y).outcome = _
      rw [evaluate_of_error hfault]
      rfl
    exact report_eq_error_iff.mpr (.inr (.inr ⟨k, y, (h.mono (Nat.le_succ _)).tests hy.toTests,
      .step hvalue hy.value_finite hy.rejected hy.more (.slopeFault hslope)⟩))

/-- The evaluations that a search makes determine the whole run. -/
theorem report_of_agrees (h : ∀ m d, Asks g c x m d → g' d = g d) :
    (ofDual g' c).report x = (ofDual g c).report x := by
  refine report_congr_of_tests rfl rfl rfl ?_ ?_
  · intro k y hy
    exact function_ofDual_eq (h (2 * k) _ (.value hy))
  · intro k y fy hy
    exact advance_ofDual_eq (h (2 * k + 1) _ (.slope hy))

/-- What the search of a solver that is made from `g` evaluates. -/
structure EvaluatesDual (g : Dual α → Except ShapeFault (Dual α)) (c : Config α) (x : α) :
    Prop where
  /-- A value is the first part of one evaluation, with the seed zero. -/
  value : ∀ y, (ofDual g c).function y = (g (.constant y)).map Dual.re
  /-- A derivative is the second part of one evaluation, with the seed one. -/
  slope : ∀ y fy, (ofDual g c).derivative.at (ofDual g c).function y fy = do
    note .request
    note .slope
    ofExcept ((g (.variableAt y)).map Dual.eps)
  /-- The evaluations are as many as the tests and the requests for a derivative. -/
  count : ∀ m, (∃ d, Asks g c x m d) ↔ m < ((ofDual g c).report x).journal.residuals
    + ((ofDual g c).report x).journal.requests
  /-- Each of them is made at one dual number. -/
  unique : ∀ m d d', Asks g c x m d → Asks g c x m d' → d = d'
  /-- It is made, after those before it. -/
  made : ∀ m d, Asks g c x m d → ∀ g', AgreesBefore g g' c x m → ∀ f, g' d = .error f →
    ((ofDual g' c).report x).outcome = .error (.fault f)
  /-- There are no others. -/
  no_others : ∀ g', (∀ m d, Asks g c x m d → g' d = g d) →
    (ofDual g' c).report x = (ofDual g c).report x

theorem evaluatesDual (g : Dual α → Except ShapeFault (Dual α)) (c : Config α) (x : α) :
    EvaluatesDual g c x where
  value _ := rfl
  slope _ _ := rfl
  count _ := exists_asks_iff
  unique _ _ _ := Asks.unique
  made _ _ hd _ h _ hf := report_of_fault hd h hf
  no_others _ := report_of_agrees

end NewtonMethod.Solver
