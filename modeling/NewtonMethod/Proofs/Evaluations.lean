/-
NewtonMethod/Proofs/Evaluations.lean

What a search costs.

What a search evaluates is fixed by the number of its tests and the number of its
requests for a derivative, and these by its outcome.  `Tally` is the table of what
each outcome means for them, and `report_evaluates` says that every search keeps
to it, in all three spaces.  A function over dual numbers, from which a value and
a derivative are taken, is evaluated once for each test and once for each request
(`EvaluatesDual`).
-/
import NewtonMethod.Proofs.Counts
import NewtonMethod.Proofs.DualQuestions
import NewtonMethod.Proofs.Shapes

namespace NewtonMethod

open Run PointSpace

namespace Solver

variable {X α J : Type} [Arithmetic α] [PointSpace X α J] {s : Solver X α J} {i : Nat} {x : X}
  {j : Journal α} {o : Except (Stop α) (Report X α)}

/-! ### The table -/

/-- `Tally o t r`: a search that ends with `o` tests `t` points and asks for `r` derivatives. -/
inductive Tally : Except (Stop α) (Report X α) → Nat → Nat → Prop
  | config_rejected {fault : ConfigFault α} : Tally (.error (.failure (.invalidConfig fault))) 0 0
  | start_rejected {i : Nat} {p : Array α} :
      Tally (.error (.failure (.nonFiniteValue .initialGuess i p))) 0 0
  | no_budget {r : α} {p : Array α} : Tally (.error (.failure (.maxIterationsExceeded 0 r p))) 0 0
  | found {x : X} {k : Nat} {r : α} : Tally (.ok ⟨x, k, r⟩) (k + 1) k
  | exhausted {n : Nat} {r : α} {p : Array α} :
      Tally (.error (.failure (.maxIterationsExceeded (n + 1) r p))) (n + 1) n
  | function_not_finite {i : Nat} {p : Array α} :
      Tally (.error (.failure (.nonFiniteValue .function i p))) (i + 1) i
  | derivative_not_finite {i : Nat} {p : Array α} :
      Tally (.error (.failure (.nonFiniteValue .derivative i p))) (i + 1) (i + 1)
  | singular {i : Nat} {p : Array α} :
      Tally (.error (.failure (.singularDerivative i p))) (i + 1) (i + 1)
  | diverged {i : Nat} {p : Array α} : Tally (.error (.failure (.diverged i p))) (i + 1) (i + 1)
  | shape_mismatch {k rows cols residual : Nat} :
      Tally (.error (.failure (.dimensionMismatch rows cols residual))) k k

/-- What the search from `x` evaluates. -/
structure Evaluates (s : Solver X α J) (x : X) : Prop where
  /-- The points that it tests and the derivatives that it asks for go by the table. -/
  tally : (s.report x).FaultFree →
    Tally (s.report x).outcome (s.report x).journal.residuals (s.report x).journal.requests
  /-- The function is evaluated for each test and for each derivative. -/
  function_calls : (s.report x).FaultFree →
    (s.report x).journal.functionCalls = (s.report x).journal.residuals
      + (s.report x).journal.requests * s.derivative.functionCost (dimension x)
  /-- A derivative with a function of its own evaluates it once. -/
  derivative_calls : (s.report x).FaultFree →
    (s.report x).journal.derivativeCalls
      = (s.report x).journal.requests * s.derivative.slopeCost
  /-- Without a budget nothing is done. -/
  no_budget : s.config.maxIterations = 0 →
    (s.report x).journal.residuals = 0 ∧ (s.report x).journal.requests = 0
  /-- The budget counts tests. -/
  residuals_le : (s.report x).journal.residuals ≤ s.config.maxIterations
  /-- After the last test there is no step. -/
  requests_le : 0 < s.config.maxIterations →
    (s.report x).journal.requests ≤ s.config.maxIterations - 1

/-- Where a search ends, its outcome fixes how much it tests and asks for there. -/
theorem Ends.tally (h : s.Ends i x j o) (hfault : ∀ f, o ≠ .error (.fault f)) :
    Tally o (i + j.residuals) (i + j.requests) := by
  cases h with
  | fault => exact absurd rfl (hfault _)
  | notFinite => exact .function_not_finite
  | found => exact .found
  | exhausted _ _ hlast =>
    rw [← hlast]
    exact .exhausted
  | stops _ _ _ _ hstep =>
    simp only [Journal.residuals_test, residuals_advance, Journal.requests_test, requests_advance]
    cases advance_eq_error_iff.mp hstep with
    | slopeFault => exact absurd rfl (hfault _)
    | slopeNotFinite => exact .derivative_not_finite
    | singular => exact .singular
    | shape => exact .shape_mismatch
    | moveFault => exact absurd rfl (hfault _)
    | overflow => exact .diverged

/-- A search that is refused, or has no budget, evaluates nothing. -/
theorem evaluates_of_fail {e : SolveError α} (he : e.precedesSearch = true)
    (hreport : s.report x = fail (e.announcement some) e) : s.Evaluates x := by
  have hjournal : (s.report x).journal = [.event (e.announcement some)] := by
    rw [hreport]
    rfl
  have hresiduals : (s.report x).journal.residuals = 0 := by
    rw [hjournal]
    rfl
  have hrequests : (s.report x).journal.requests = 0 := by
    rw [hjournal]
    rfl
  refine ⟨fun _ => ?_, fun _ => ?_, fun _ => ?_, fun _ => ⟨hresiduals, hrequests⟩, ?_, fun _ => ?_⟩
  · rw [hresiduals, hrequests, hreport]
    -- the errors that precede a search have rows of their own in the table
    cases e with
    | maxIterationsExceeded n r p =>
      cases n with
      | zero => exact .no_budget
      | succ => cases he
    | nonFiniteValue stage i p =>
      cases stage with
      | initialGuess => exact .start_rejected
      | function => cases he
      | derivative => cases he
    | invalidConfig fault => exact .config_rejected
    | singularDerivative i p => cases he
    | diverged i p => cases he
    | dimensionMismatch rows cols residual => cases he
  · rw [hresiduals, hrequests, Nat.zero_mul, hjournal]
    rfl
  · rw [hrequests, Nat.zero_mul, hjournal]
    rfl
  · rw [hresiduals]
    exact Nat.zero_le _
  · rw [hrequests]
    exact Nat.zero_le _

/-- A search keeps to the table in every space in which a step does not change the number of
coordinates. -/
theorem evaluates_of_dimension
    (hdimension : ∀ y z d : X, difference y d = .ok z → dimension z = dimension y)
    (s : Solver X α J) (x : X) : s.Evaluates x := by
  rcases course_report s x with ⟨e, he, hreport, -⟩ | ⟨-, -, hpos, hcourse⟩
  · exact evaluates_of_fail he hreport
  · obtain ⟨k, y, lines, hk, -, -, hends, hresiduals, hrequests⟩ := hcourse.exists_ends hpos
    rw [Nat.zero_add] at hk hends
    have hone := hends.residuals_eq
    have hlt := hends.add_requests_lt hk
    refine ⟨fun hfault => ?_, fun hfault => (hcourse.calls hdimension hfault).1,
      fun hfault => (hcourse.calls hdimension hfault).2, fun hzero => ?_, ?_, fun _ => ?_⟩
    · rw [hresiduals, hrequests]
      exact hends.tally hfault
    · omega
    · omega
    · omega

end Solver

variable [Arithmetic α]

/-- **What a search evaluates is determined by its outcome.**  In each of the three spaces, the
number of tests and the number of requests for a derivative are those of the table, and the
evaluations of the function and of the derivative follow from them.  A function over dual numbers
from which a solver is made is evaluated once for each test and once for each request. -/
theorem report_evaluates :
    (∀ (s : Solver α α α) (x : α), s.Evaluates x) ∧
    (∀ (s : Solver (Array α) α (Jacobian α)) (x : Array α), s.Evaluates x) ∧
    (∀ (n : Nat) (s : Solver (Vector α n) α (Table α n n)) (x : Vector α n), s.Evaluates x) ∧
    ∀ (g : Dual α → Except ShapeFault (Dual α)) (config : Config α) (x : α),
      Solver.EvaluatesDual g config x ∧
      (((Solver.ofDual g config).report x).FaultFree →
        ((Solver.ofDual g config).report x).journal.functionCalls
            + ((Solver.ofDual g config).report x).journal.derivativeCalls
          = ((Solver.ofDual g config).report x).journal.residuals
            + ((Solver.ofDual g config).report x).journal.requests) := by
  have hnumber : ∀ (s : Solver α α α) (x : α), s.Evaluates x :=
    Solver.evaluates_of_dimension fun _ _ _ _ => rfl
  refine ⟨hnumber, Solver.evaluates_of_dimension fun _ _ _ h => Column.size_of_difference h,
    fun _ => Solver.evaluates_of_dimension fun _ _ _ _ => rfl, fun g config x => ⟨?_, ?_⟩⟩
  · exact Solver.evaluatesDual g config x
  · intro hfault
    -- a derivative costs no evaluation of the function and one of its own
    obtain ⟨-, hfunction, hderivative, -, -, -⟩ := hnumber (Solver.ofDual g config) x
    rw [hfunction hfault, hderivative hfault]
    show _ + _ * 0 + _ * 1 = _
    rw [Nat.mul_zero, Nat.mul_one, Nat.add_zero]

/-- Three tests and two steps.  By central differences each step costs two evaluations, and the
function over dual numbers is evaluated five times in all. -/
theorem report_evaluates_rootOfTwo :
    let config : Config ℚ := ⟨1 / 10, 5, none, 1, .central, 0⟩
    let s : Solver ℚ ℚ ℚ := Solver.ofFunction (fun x => .ok (x * x - 2)) config
    let g : Dual ℚ → Except ShapeFault (Dual ℚ) := fun x => .ok (x * x - .constant 2)
    (s.report 2).FaultFree ∧ (s.report 2).outcome = .ok ⟨17 / 12, 2, 1 / 144⟩
      ∧ (s.report 2).journal.residuals = 3 ∧ (s.report 2).journal.requests = 2
      ∧ (s.report 2).journal.functionCalls = 3 + 2 * (2 * 1)
      ∧ ∀ m, (∃ d, Solver.Asks g config 2 m d) ↔ m < 5 := by
  intro config s g
  have hfound : (s.report 2).outcome = .ok ⟨17 / 12, 2, 1 / 144⟩ := by decide +kernel
  have hfault : (s.report 2).FaultFree := by
    intro f h
    rw [hfound] at h
    cases h
  have hlines : ((Solver.ofDual g config).report 2).journal.residuals = 3
      ∧ ((Solver.ofDual g config).report 2).journal.requests = 2 := by decide +kernel
  obtain ⟨hnumber, -, -, hdual⟩ := report_evaluates (α := ℚ)
  have hcount := (hdual g config 2).1.count
  rw [hlines.1, hlines.2] at hcount
  obtain ⟨htally, hcalls, -, -, -, -⟩ := hnumber s 2
  have htally := htally hfault
  have hcalls := hcalls hfault
  rw [hfound] at htally
  generalize (s.report 2).journal.residuals = t at htally hcalls
  generalize (s.report 2).journal.requests = r at htally hcalls
  cases htally
  exact ⟨hfault, hfound, rfl, rfl, hcalls, hcount⟩

end NewtonMethod
