/-
NewtonMethod/Proofs/Counts.lean

What a journal counts.

A journal counts the residuals, at which the function is evaluated once, and the
requests for a derivative.  What a request costs is fixed by the kind of the
derivative and by the number `n` of coordinates:

    forward differences       n evaluations of the function
    central differences       2 * n evaluations of the function
    a function of its own     one evaluation of that function

A search tests its points one after the other and asks for a derivative at each
of them but the last.  So it is enough to look at the point where it ends
(`Course.exists_ends`): there it has tested once more, and it has asked for one
derivative more exactly if there is a step to be taken.  From this the lines of a
journal can be matched with the iterates: the `k`-th test is that of the `k`-th
iterate (`exists_tests_iff`), and the `k`-th request comes with the step from it
(`exists_stepsFrom_iff`).
-/
import Mathlib.Tactic.Ring
import NewtonMethod.Proofs.Course

namespace NewtonMethod

open Run PointSpace

variable {X α J : Type}

/-- The run does not end with a fault. -/
def Run.FaultFree {β : Type} (r : Run α β) : Prop := ∀ f, r.outcome ≠ .error (.fault f)

/-! ### Counting lines -/

namespace Entry

/-- The line records an evaluation of the function at a point to be tested. -/
def isResidual : Entry α → Bool
  | residual => true
  | _ => false

/-- The line records a request for a derivative. -/
def isRequest : Entry α → Bool
  | request => true
  | _ => false

end Entry

namespace Journal

/-- How often a point was tested. -/
def residuals (j : Journal α) : Nat := j.countP Entry.isResidual

/-- How often a derivative was asked for. -/
def requests (j : Journal α) : Nat := j.countP Entry.isRequest

/-- Of what is counted, the events are nothing. -/
theorem countP_map_event {p : Entry α → Bool} (hp : ∀ e, p (.event e) = false)
    (es : List (Event α)) : (es.map Entry.event).countP p = 0 := by
  refine List.countP_eq_zero.mpr fun line hline => ?_
  obtain ⟨e, -, rfl⟩ := List.mem_map.mp hline
  exact Bool.eq_false_iff.mp (hp e)

/-- The lines of a test, which are an evaluation and an event, and the lines after it. -/
theorem countP_test {p : Entry α → Bool} (hp : ∀ e, p (.event e) = false) (e : Event α)
    (j : Journal α) :
    List.countP p (.residual :: .event e :: j) = (p .residual).toNat + j.countP p := by
  rw [List.countP_cons, List.countP_cons, hp]
  cases p .residual <;> simp [Nat.add_comm]

@[simp] theorem residuals_test (e : Event α) (j : Journal α) :
    residuals (.residual :: .event e :: j) = 1 + j.residuals := countP_test (fun _ => rfl) e j

@[simp] theorem requests_test (e : Event α) (j : Journal α) :
    requests (.residual :: .event e :: j) = j.requests :=
  (countP_test (fun _ => rfl) e j).trans (Nat.zero_add _)

@[simp] theorem functionCalls_test (e : Event α) (j : Journal α) :
    functionCalls (.residual :: .event e :: j) = 1 + j.functionCalls :=
  countP_test (fun _ => rfl) e j

@[simp] theorem derivativeCalls_test (e : Event α) (j : Journal α) :
    derivativeCalls (.residual :: .event e :: j) = j.derivativeCalls :=
  (countP_test (fun _ => rfl) e j).trans (Nat.zero_add _)

@[simp] theorem residuals_append (j k : Journal α) :
    residuals (j ++ k) = j.residuals + k.residuals := List.countP_append

@[simp] theorem requests_append (j k : Journal α) :
    requests (j ++ k) = j.requests + k.requests := List.countP_append

@[simp] theorem functionCalls_append (j k : Journal α) :
    functionCalls (j ++ k) = j.functionCalls + k.functionCalls := List.countP_append

@[simp] theorem derivativeCalls_append (j k : Journal α) :
    derivativeCalls (j ++ k) = j.derivativeCalls + k.derivativeCalls := List.countP_append

end Journal

/-! ### The cost of a derivative -/

namespace Derivative

/-- How often the function is evaluated for a derivative at a point with `n` coordinates. -/
def functionCost (d : Derivative X α J) (n : Nat) : Nat :=
  match d with
  | .differences ⟨_, .forward⟩ => n
  | .differences ⟨_, .central⟩ => 2 * n
  | .function _ => 0

/-- How often a function of its own is evaluated for a derivative. -/
def slopeCost : Derivative X α J → Nat
  | .differences _ => 0
  | .function _ => 1

/-- The lines that a derivative adds when it succeeds are as many calls as it costs. -/
theorem functionCalls_samples (d : Derivative X α J) (n : Nat) :
    (d.samples n).countP Entry.isFunctionCall = d.functionCost n := by
  rcases d with ⟨_, _ | _⟩ | _
  · exact List.countP_replicate.trans (if_pos rfl)
  · exact List.countP_replicate.trans (if_pos rfl)
  · rfl

theorem derivativeCalls_samples (d : Derivative X α J) (n : Nat) :
    (d.samples n).countP Entry.isDerivativeCall = d.slopeCost := by
  rcases d with ⟨_, _ | _⟩ | _
  · exact List.countP_replicate.trans (if_neg Bool.false_ne_true)
  · exact List.countP_replicate.trans (if_neg Bool.false_ne_true)
  · rfl

end Derivative

namespace Solver

variable [Arithmetic α] [PointSpace X α J] {s : Solver X α J} {i : Nat} {x fx : X}
  {j : Journal α} {o : Except (Stop α) (Report X α)}

/-- Of the lines of a step only those of its derivative count. -/
theorem countP_advance (s : Solver X α J) (i : Nat) (x fx : X) {p : Entry α → Bool}
    (hp : ∀ e, p (.event e) = false) :
    (s.advance i x fx).journal.countP p
      = (s.derivative.at s.function x fx).journal.countP p := by
  obtain ⟨es, -, hjournal⟩ := exists_journal_advance s i x fx
  rw [hjournal, List.countP_append, Journal.countP_map_event hp, Nat.add_zero]

omit [Arithmetic α] [PointSpace X α J] in
/-- Next to a point nothing is tested and no derivative is asked for. -/
theorem countP_samples {p : Entry α → Bool} (hdifference : p .difference = false)
    (hslope : p .slope = false) {lines : Journal α}
    (h : ∀ line ∈ lines, Derivative.IsSample line) : lines.countP p = 0 := by
  refine List.countP_eq_zero.mpr fun line hline => Bool.eq_false_iff.mp ?_
  rcases h line hline with rfl | rfl
  · exact hdifference
  · exact hslope

@[simp] theorem residuals_advance (s : Solver X α J) (i : Nat) (x fx : X) :
    (s.advance i x fx).journal.residuals = 0 := by
  obtain ⟨lines, hjournal, hsamples, -⟩ := exists_journal_at s.derivative s.function x fx
  rw [Journal.residuals, countP_advance s i x fx fun _ => rfl, hjournal,
    List.countP_cons_of_neg Bool.false_ne_true, countP_samples rfl rfl hsamples]

@[simp] theorem requests_advance (s : Solver X α J) (i : Nat) (x fx : X) :
    (s.advance i x fx).journal.requests = 1 := by
  obtain ⟨lines, hjournal, hsamples, -⟩ := exists_journal_at s.derivative s.function x fx
  rw [Journal.requests, countP_advance s i x fx fun _ => rfl, hjournal,
    List.countP_cons_of_pos rfl, countP_samples rfl rfl hsamples]

/-- A step that does not end with a fault costs what its derivative costs. -/
theorem calls_advance (hfault : (s.advance i x fx).FaultFree) :
    (s.advance i x fx).journal.functionCalls = s.derivative.functionCost (dimension x)
      ∧ (s.advance i x fx).journal.derivativeCalls = s.derivative.slopeCost := by
  obtain ⟨lines, hjournal, -, hlines⟩ := exists_journal_at s.derivative s.function x fx
  have hlines : lines = s.derivative.samples (dimension x) := by
    rcases hslope : (s.derivative.at s.function x fx).outcome with (f | e) | jacobian
    · exact absurd (advance_eq_error_iff.mpr (.slopeFault hslope)) (hfault f)
    · exact absurd hslope (onlyFaults_at s.derivative s.function x fx e)
    · exact hlines jacobian hslope
  rw [Journal.functionCalls, Journal.derivativeCalls, countP_advance s i x fx fun _ => rfl,
    countP_advance s i x fx fun _ => rfl, hjournal, List.countP_cons_of_neg Bool.false_ne_true,
    List.countP_cons_of_neg Bool.false_ne_true, hlines]
  exact ⟨s.derivative.functionCalls_samples _, s.derivative.derivativeCalls_samples _⟩

/-! ### The point where a search ends -/

/-- Where a search ends it tests one point. -/
theorem Ends.residuals_eq (h : s.Ends i x j o) : j.residuals = 1 := by
  cases h with
  | stops => simp
  | _ => rfl

/-- Where a search ends, a derivative is asked for exactly if the point is rejected and there is
another one to step to. -/
theorem Ends.requests_eq_one_iff (h : s.Ends i x j o) :
    j.requests = 1 ↔ i + 1 < s.config.maxIterations ∧ ∃ fx, s.function x = .ok fx
      ∧ isFinite fx = true ∧ Arithmetic.le (norm fx) s.config.tolerance = false := by
  cases h with
  | fault hf =>
    refine iff_of_false Nat.zero_ne_one ?_
    rintro ⟨-, fx, hf', -⟩
    cases hf.symm.trans hf'
  | notFinite hf hbad =>
    refine iff_of_false Nat.zero_ne_one ?_
    rintro ⟨-, fx, hf', hfin, -⟩
    obtain rfl := Except.ok.inj (hf.symm.trans hf')
    cases hbad.symm.trans hfin
  | found haccept =>
    refine iff_of_false Nat.zero_ne_one ?_
    rintro ⟨-, fx, hf, hfin, hreject⟩
    exact Rejects.not_accepts ⟨norm fx, ⟨fx, hf, hfin, rfl⟩, hreject⟩ haccept
  | exhausted _ _ hlast =>
    refine iff_of_false Nat.zero_ne_one ?_
    rintro ⟨hmore, -⟩
    exact hmore.ne hlast
  | stops hf hfin hreject hmore _ =>
    exact iff_of_true (by simp) ⟨hmore, _, hf, hfin, hreject⟩

/-- A search asks for one derivative at most where it ends. -/
theorem Ends.add_requests_le (h : s.Ends i x j o) : i + j.requests ≤ i + 1 := by
  apply Nat.add_le_add_left
  cases h with
  | stops => simp
  | _ => exact Nat.zero_le 1

/-- A derivative is asked for where a search ends only if there is another point to step to. -/
theorem Ends.add_requests_lt (h : s.Ends i x j o) (hi : i < s.config.maxIterations) :
    i + j.requests < s.config.maxIterations := by
  cases h with
  | stops _ _ _ hmore _ => simpa using hmore
  | _ => exact hi

/-- A search passes `k` iterates, testing each of them and asking for a derivative there, and ends
at the next one. -/
theorem Course.exists_ends (h : s.Course i x j o) (hi : i < s.config.maxIterations) :
    ∃ k y lines, i + k < s.config.maxIterations ∧ s.Iterates x k y ∧ s.RejectsBefore x k
      ∧ s.Ends (i + k) y lines o
      ∧ j.residuals = k + lines.residuals ∧ j.requests = k + lines.requests := by
  induction h with
  | @ends i x j o last =>
    exact ⟨0, x, j, hi, .start x, rejectsBefore_zero s x, last, (Nat.zero_add _).symm,
      (Nat.zero_add _).symm⟩
  | @steps i x fx y j o hf hfin hreject hmore hstep _ ih =>
    -- the points passed from the next one on are counted one less, and this one makes up for it
    obtain ⟨k, z, lines, hk, hz, hbefore, hends, hresiduals, hrequests⟩ := ih hmore
    rw [Nat.add_assoc, Nat.add_comm 1 k] at hk hends
    have hxy : s.Updates x y := (updates_iff i).mpr ⟨fx, hf, hfin, hstep⟩
    have hx : s.Rejects x := ⟨norm fx, ⟨fx, hf, hfin, rfl⟩, hreject⟩
    refine ⟨k + 1, z, lines, hk, .next hxy hz, ?_, hends, ?_, ?_⟩
    · exact (rejectsBefore_succ_iff hxy).mpr ⟨hx, hbefore⟩
    · simp
      omega
    · simp
      omega

/-- A search that does not end with a fault evaluates the function once for each test, and for each
derivative it does what that costs, each of its points having as many coordinates as the first. -/
theorem Course.calls (h : s.Course i x j o)
    (hdimension : ∀ y z d : X, difference y d = .ok z → dimension z = dimension y)
    (hfault : ∀ f, o ≠ .error (.fault f)) :
    j.functionCalls = j.residuals + j.requests * s.derivative.functionCost (dimension x)
      ∧ j.derivativeCalls = j.requests * s.derivative.slopeCost := by
  induction h with
  | @ends i x j o last =>
    -- only a step that stops for a reason of its own has paid for a derivative
    cases last with
    | fault => exact absurd rfl (hfault _)
    | @stops fx stop _ _ _ _ hstep =>
      have hstop : (s.advance i x fx).FaultFree := by
        intro f hf
        obtain rfl := Except.error.inj (hstep.symm.trans hf)
        exact hfault f rfl
      obtain ⟨hfunction, hderivative⟩ := calls_advance hstop
      simp [hfunction, hderivative]
    | _ => exact ⟨(congrArg (1 + ·) (Nat.zero_mul _)).symm, (Nat.zero_mul _).symm⟩
  | @steps i x fx y j o _ _ _ _ hstep _ ih =>
    have hstop : (s.advance i x fx).FaultFree := by
      intro f hf
      cases hstep.symm.trans hf
    have hsame : dimension y = dimension x := by
      obtain ⟨_, delta, -, -, -, hmove, -, -⟩ := advance_eq_ok_iff.mp hstep
      exact hdimension x y _ hmove
    -- every step costs the same, since the number of coordinates does not change
    obtain ⟨hfunction, hderivative⟩ := calls_advance hstop
    obtain ⟨ihfunction, ihderivative⟩ := ih hfault
    rw [hsame] at ihfunction
    constructor
    · simp [hfunction, ihfunction]
      ring
    · simp [hderivative, ihderivative]
      ring

/-! ### The points that a search tests -/

/-- A search ends at the last point that it tests. -/
theorem Ends.le_of_tests {k m : Nat} {y z : X} (h : s.Ends m z j o) (hz : s.Tests x m z)
    (hy : s.Tests x k y) : k ≤ m := by
  by_contra hlt
  -- else it would step on from there
  obtain ⟨w, fw, hw⟩ := hy.exists_stepsFrom (Nat.lt_of_not_le hlt)
  obtain rfl := hw.iterate.unique hz.iterate
  obtain ⟨w', hww'⟩ := hy.iterate.exists_updates (Nat.lt_of_not_le hlt) hw.iterate
  have hreject : s.Rejects w := ⟨norm fw, ⟨fw, hw.value, hw.value_finite, rfl⟩, hw.rejected⟩
  -- a stop rules out the update that the later test needs, and a success is at a point that is
  -- accepted
  rcases o with stop | found
  · exact h.stopsAt.not_updates hreject hw.more hww'
  · cases h with
    | found haccept => exact hreject.not_accepts haccept

/-- The counts of a search tell its last point.  Either nothing is tested and counted, or the search
ends at the iterate `y` that is tested last. -/
theorem counts_report (s : Solver X α J) (x : X) :
    ((s.report x).journal.residuals = 0 ∧ (s.report x).journal.requests = 0
      ∧ ∀ k y, ¬s.Tests x k y)
    ∨ ∃ k y lines, s.Tests x k y ∧ s.Ends k y lines (s.report x).outcome
      ∧ (s.report x).journal.residuals = k + 1
      ∧ (s.report x).journal.requests = k + lines.requests := by
  rcases course_report s x with ⟨e, -, hreport, hnone⟩ | ⟨hvalid, hx, hpos, hcourse⟩
  · refine .inl ⟨?_, ?_, hnone⟩
    · rw [hreport]
      rfl
    · rw [hreport]
      rfl
  · obtain ⟨k, y, lines, hk, hy, hbefore, hends, hresiduals, hrequests⟩ :=
      hcourse.exists_ends hpos
    rw [Nat.zero_add] at hk hends
    rw [hends.residuals_eq] at hresiduals
    exact .inr ⟨k, y, lines, ⟨hvalid, hx, hy, hy.isFinite hx, hbefore, hk⟩, hends, hresiduals,
      hrequests⟩

/-- The `k`-th test is that of the `k`-th iterate. -/
theorem exists_tests_iff {k : Nat} :
    (∃ y, s.Tests x k y) ↔ k < (s.report x).journal.residuals := by
  rcases counts_report s x with ⟨hresiduals, -, hnone⟩ | ⟨m, z, lines, hz, hends, hresiduals, -⟩
  · simp [hresiduals, hnone]
  · rw [hresiduals, Nat.lt_succ_iff]
    constructor
    · -- tests come before the end
      rintro ⟨y, hy⟩
      exact hends.le_of_tests hz hy
    · exact hz.exists_tests

/-- The `k`-th request for a derivative is made for the step from the `k`-th iterate. -/
theorem exists_stepsFrom_iff {k : Nat} :
    (∃ y fy, s.StepsFrom x k y fy) ↔ k < (s.report x).journal.requests := by
  rcases counts_report s x with ⟨-, hrequests, hnone⟩ | ⟨m, z, lines, hz, hends, -, hrequests⟩
  · rw [hrequests]
    refine iff_of_false ?_ k.not_lt_zero
    rintro ⟨y, fy, hy⟩
    exact hnone k y hy.toTests
  · have hle : m + lines.requests ≤ m + 1 := hends.add_requests_le
    have hlast := hends.requests_eq_one_iff
    rw [hrequests]
    constructor
    · rintro ⟨y, fy, hy⟩
      rcases (hends.le_of_tests hz hy.toTests).lt_or_eq with hk | rfl
      · omega
      · -- the step from the last iterate
        obtain rfl := hy.iterate.unique hz.iterate
        have := hlast.mpr ⟨hy.more, fy, hy.value, hy.value_finite, hy.rejected⟩
        omega
    · intro hk
      -- before the last iterate there is always a step
      rcases Nat.lt_or_ge k m with hkm | hkm
      · exact hz.exists_stepsFrom hkm
      · obtain rfl : k = m := by omega
        obtain ⟨hmore, fz, hf, hfin, hreject⟩ := hlast.mp (by omega)
        exact ⟨z, fz, hz, hf, hfin, hreject, hmore⟩

/-- There is a step after each test but the last, and perhaps one that is stopped there. -/
theorem requests_le_residuals (s : Solver X α J) (x : X) :
    (s.report x).journal.requests ≤ (s.report x).journal.residuals
      ∧ (s.report x).journal.residuals ≤ (s.report x).journal.requests + 1 := by
  rcases counts_report s x with ⟨h, h', -⟩ | ⟨m, z, lines, -, hends, hresiduals, hrequests⟩
  · omega
  · have hle : m + lines.requests ≤ m + 1 := hends.add_requests_le
    omega

end Solver

end NewtonMethod
