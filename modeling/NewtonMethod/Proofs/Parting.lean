/-
NewtonMethod/Proofs/Parting.lean

Two searches that go together for a while and part.

Let two solvers refuse the same starts, seek the root of the same function and
have the same tolerance and budget (`DifferInSteps`).  Then they test a point
alike, and only the step from a point can be another one.

* If no step from an iterate of the one search is another one, the two searches
  are the same run, line by line of their journals (`report_congr`).
* If no step before the `i`-th iterate is, they come to that iterate by the same
  updates and the same lines, and part at its step, if at all (`together`).

Which steps are the same has to be known at the iterates of one search only, and
only where that search takes a step (`StepsFrom`).  The inductions are on the
turns that are left and on the updates that lead to an iterate.
-/
import NewtonMethod.Proofs.Budget
import NewtonMethod.Proofs.FailureReport

namespace NewtonMethod

/-- What a run has written is not taken back by what comes after it. -/
theorem Run.journal_prefix_bind {α β γ : Type} (r : Run α β) (k : β → Run α γ) :
    r.journal <+: (r >>= k).journal := by
  rcases h : r.outcome with stop | b
  · simp only [bind_of_error h, List.prefix_refl]
  · rw [bind_of_ok h]
    exact List.prefix_append _ _

namespace Solver

open Run PointSpace

variable {X α J : Type} [Arithmetic α] [PointSpace X α J] {s t : Solver X α J} {i k n : Nat}
  {x y fy : X}

/-- The solvers refuse the same starts and test points alike, and may differ in their steps. -/
structure DifferInSteps (s t : Solver X α J) : Prop where
  start : ∀ x, t.checkStart x = s.checkStart x
  function : t.function = s.function
  tolerance : t.config.tolerance = s.config.tolerance
  budget : t.config.maxIterations = s.config.maxIterations

/-- A turn looks at the function at its point only. -/
theorem turn_eq_of_value (hvalue : t.function x = s.function x)
    (htolerance : t.config.tolerance = s.config.tolerance) (i : Nat)
    (next : X → α → Run α (Report X α)) : t.turn i x next = s.turn i x next := by
  have htest : t.test i x = s.test i x := by
    rw [Solver.test, Solver.test, evaluate, evaluate, hvalue]
  rw [Solver.turn, Solver.turn, htest, htolerance]

omit [Arithmetic α] in
theorem exhausted_eq_of_budget (hbudget : t.config.maxIterations = s.config.maxIterations) :
    t.exhausted = s.exhausted := by
  funext r x
  rw [Solver.exhausted, Solver.exhausted, hbudget]

theorem DifferInSteps.turn (h : DifferInSteps s t) (i : Nat) (x : X)
    (next : X → α → Run α (Report X α)) : t.turn i x next = s.turn i x next :=
  turn_eq_of_value (congrFun h.function x) h.tolerance i next

/-! ### Searches without a difference -/

/-- A search is the same if the function has the same values at the iterates that it may test and
the steps are the same at those that it may step from. -/
theorem search_congr (htolerance : t.config.tolerance = s.config.tolerance)
    (hbudget : t.config.maxIterations = s.config.maxIterations)
    (hvalue : ∀ k y, k ≤ n → s.Iterates x k y → s.RejectsBefore x k →
      t.function y = s.function y)
    (hstep : ∀ k y fy, k < n → s.Iterates x k y → s.RejectsBefore x k → s.function y = .ok fy →
      isFinite fy = true → Arithmetic.le (norm fy) s.config.tolerance = false →
        t.advance (i + k) y fy = s.advance (i + k) y fy) :
    t.search n i x = s.search n i x := by
  induction n generalizing i x with
  | zero =>
    have hx : t.function x = s.function x :=
      hvalue 0 x (Nat.le_refl 0) (.start x) (rejectsBefore_zero s x)
    rw [search_zero, search_zero, turn_eq_of_value hx htolerance, exhausted_eq_of_budget hbudget]
  | succ n ih =>
    have hx : t.function x = s.function x :=
      hvalue 0 x (Nat.zero_le _) (.start x) (rejectsBefore_zero s x)
    rw [search_succ, search_succ, turn_eq_of_value hx htolerance]
    apply turn_congr
    intro fx hf hfin hle
    have hfirst : t.advance i x fx = s.advance i x fx :=
      hstep 0 x fx n.succ_pos (.start x) (rejectsBefore_zero s x) hf hfin hle
    rw [hfirst]
    rcases hadvance : (s.advance i x fx).outcome with stop | y
    · rw [bind_of_error hadvance, bind_of_error hadvance]
    · -- the iterates from `y` are those from `x`, counted one less
      have hxy : s.Updates x y := (updates_iff i).mpr ⟨fx, hf, hfin, hadvance⟩
      have hreject : s.Rejects x := ⟨norm fx, ⟨fx, hf, hfin, rfl⟩, hle⟩
      have hrest : t.search n (i + 1) y = s.search n (i + 1) y := by
        apply ih
        · intro k z hk hz hbefore
          exact hvalue (k + 1) z (Nat.succ_le_succ hk) (.next hxy hz)
            ((rejectsBefore_succ_iff hxy).mpr ⟨hreject, hbefore⟩)
        · intro k z fz hk hz hbefore hf' hfin' hle'
          rw [Nat.add_assoc, Nat.add_comm 1 k]
          exact hstep (k + 1) z fz (Nat.succ_lt_succ hk) (.next hxy hz)
            ((rejectsBefore_succ_iff hxy).mpr ⟨hreject, hbefore⟩) hf' hfin' hle'
      rw [bind_of_ok hadvance, bind_of_ok hadvance, hrest]

/-- If the function has the same values where the one search tests, and the steps that it takes are
those of the other solver, the searches are the same. -/
theorem report_congr_of_tests (hstart : t.checkStart x = s.checkStart x)
    (htolerance : t.config.tolerance = s.config.tolerance)
    (hbudget : t.config.maxIterations = s.config.maxIterations)
    (hvalue : ∀ i y, s.Tests x i y → t.function y = s.function y)
    (hstep : ∀ i y fy, s.StepsFrom x i y fy → t.advance i y fy = s.advance i y fy) :
    t.report x = s.report x := by
  rcases hs : (s.checkStart x).outcome with stop | ⟨⟩
  · rw [report, report, hstart, bind_of_error hs, bind_of_error hs]
  · obtain ⟨hvalid, hx⟩ := checkStart_eq_ok_iff.mp hs
    have hs : s.checkStart x = pure () := checkStart_eq_pure hvalid hx
    have ht : t.checkStart x = pure () := hstart.trans hs
    rcases hmax : s.config.maxIterations with - | n
    · rw [report_eq_exhausted hs hmax, report_eq_exhausted ht (hbudget.trans hmax),
        exhausted_eq_of_budget hbudget]
    · rw [report_eq_search hs hmax, report_eq_search ht (hbudget.trans hmax)]
      apply search_congr htolerance hbudget
      · intro k y hk hy hbefore
        exact hvalue k y ⟨hvalid, hx, hy, hy.isFinite hx, hbefore, by omega⟩
      · intro k y fy hk hy hbefore hf hfin hle
        rw [Nat.zero_add]
        exact hstep k y fy ⟨⟨hvalid, hx, hy, hy.isFinite hx, hbefore, by omega⟩, hf, hfin, hle,
          by omega⟩

/-- If the steps that the one search takes are those of the other solver, the searches are the
same. -/
theorem report_congr (h : DifferInSteps s t)
    (hstep : ∀ i y fy, s.StepsFrom x i y fy → t.advance i y fy = s.advance i y fy) :
    t.report x = s.report x :=
  report_congr_of_tests (h.start x) h.tolerance h.budget (fun _ y _ => congrFun h.function y) hstep

/-! ### Searches up to their first difference -/

/-- A solver with the same steps on the way has the same iterate. -/
theorem Iterates.of_advance_eq (h : DifferInSteps s t) (hy : s.Iterates x k y)
    (hstep : ∀ m < k, ∀ z fz, s.Iterates x m z → s.function z = .ok fz →
      t.advance m z fz = s.advance m z fz) : t.Iterates x k y := by
  refine hy.of_updates fun m hm z z' hz hzz' => ?_
  obtain ⟨fz, hf, hfin, hadvance⟩ := (updates_iff m).mp hzz'
  refine (updates_iff m).mpr ⟨fz, h.function ▸ hf, hfin, ?_⟩
  rw [hstep m hm z fz hz hf]
  exact hadvance

/-- The lines that a search writes until it comes to an iterate are written by every search that
takes the same steps until then. -/
theorem exists_lines_search (hy : s.Iterates x k y) (hbefore : s.RejectsBefore x k) (i : Nat) :
    ∃ lines : Journal α, ∀ t : Solver X α J, DifferInSteps s t →
      (∀ m < k, ∀ z fz, s.Iterates x m z → s.function z = .ok fz →
        t.advance (i + m) z fz = s.advance (i + m) z fz) →
      ∀ n, (t.search (k + n) i x).journal = lines ++ (t.search n (i + k) y).journal := by
  induction hy generalizing i with
  | start x =>
    refine ⟨[], fun t _ _ n => ?_⟩
    rw [Nat.zero_add, Nat.add_zero, List.nil_append]
  | @next x y z k hxy hyz ih =>
    obtain ⟨⟨r, ⟨fx, hf, hfin, rfl⟩, hle⟩, hbefore⟩ := (rejectsBefore_succ_iff hxy).mp hbefore
    obtain ⟨lines, hlines⟩ := ih hbefore (i + 1)
    refine ⟨.residual :: .event (.residual i (norm fx)) :: ((s.advance i x fx).journal ++ lines),
      fun t h hstep n => ?_⟩
    have hfirst : t.advance i x fx = s.advance i x fx :=
      hstep 0 k.succ_pos x fx (.start x) hf
    have hrest := hlines t h (fun m hm w fw hw hf' => by
      rw [Nat.add_assoc, Nat.add_comm 1 m]
      exact hstep (m + 1) (Nat.succ_lt_succ hm) w fw (.next hxy hw) hf') n
    rw [Nat.succ_add, search_succ, h.turn, journal_turn _ hf hfin hle, hfirst,
      bind_of_ok (hxy.advance hf i), hrest, Nat.add_assoc i 1 k, Nat.add_comm 1 k]
    simp only [List.cons_append, List.append_assoc]

/-- The steps that the search of `s` from `x` takes before its `i`-th iterate are those of `t`. -/
def SameBefore (s t : Solver X α J) (x : X) (i : Nat) : Prop :=
  ∀ k < i, ∀ z fz, s.StepsFrom x k z fz → t.advance k z fz = s.advance k z fz

/-- It suffices that the steps are the same where the search takes one. -/
theorem SameBefore.advance_eq (hstep : s.SameBefore t x i) (hy : s.StepsFrom x i y fy)
    {z fz : X} (hk : k < i) (hz : s.Iterates x k z) (hf : s.function z = .ok fz) :
    t.advance k z fz = s.advance k z fz := by
  obtain ⟨z', fz', hz'⟩ := hy.exists_stepsFrom hk
  obtain rfl : z' = z := hz'.iterate.unique hz
  obtain rfl : fz' = fz := Except.ok.inj (hz'.value.symm.trans hf)
  exact hstep k hk z' fz' hz'

/-- What the searches that go along with that of `s` until its step from `y` write until then. -/
theorem exists_lines_report (hy : s.StepsFrom x i y fy) :
    ∃ lines : Journal α, ∀ t : Solver X α J, DifferInSteps s t → s.SameBefore t x i →
      lines ++ (t.advance i y fy).journal <+: (t.report x).journal := by
  obtain ⟨lines, hlines⟩ := exists_lines_search hy.iterate hy.rejected_before 0
  refine ⟨lines ++ [.residual, .event (.residual i (norm fy))], fun t h hstep => ?_⟩
  obtain ⟨n, hn⟩ : ∃ n, s.config.maxIterations = i + (n + 1) + 1 :=
    ⟨s.config.maxIterations - i - 2, by have := hy.more; omega⟩
  have hstart : t.checkStart x = pure () :=
    (h.start x).trans (checkStart_eq_pure hy.valid hy.start_finite)
  have hsearch : (t.report x).journal = lines ++ (t.search (n + 1) i y).journal := by
    have hi := hlines t h (fun k hk z fz hz hf => by
      rw [Nat.zero_add]
      exact hstep.advance_eq hy hk hz hf) (n + 1)
    rwa [Nat.zero_add, ← report_eq_search hstart (h.budget.trans hn)] at hi
  have hbegin := (t.advance i y fy).journal_prefix_bind (t.search n (i + 1))
  rw [hsearch, search_succ, h.turn, journal_turn _ hy.value hy.value_finite hy.rejected,
    List.append_assoc]
  exact (List.prefix_append_right_inj _).mpr ((List.prefix_append_right_inj [_, _]).mpr hbegin)

/-- The searches of `s` and `t` from `x` come to the same `i`-th iterate `y`, where the function has
the value `fy` that neither accepts.  Their iterates, the residuals of these and the lines they
write are the same until they step on from `y`. -/
structure Together (s t : Solver X α J) (x : X) (i : Nat) (y fy : X) : Prop where
  first : s.StepsFrom x i y fy
  second : t.StepsFrom x i y fy
  iterates : ∀ k ≤ i, ∃ z r, s.Iterates x k z ∧ t.Iterates x k z
    ∧ s.HasResidual z r ∧ t.HasResidual z r
  journals : ∃ lines, lines ++ (s.advance i y fy).journal <+: (s.report x).journal
    ∧ lines ++ (t.advance i y fy).journal <+: (t.report x).journal

/-- Two searches go together until the first step that is another one. -/
theorem together (h : DifferInSteps s t) (hy : s.StepsFrom x i y fy)
    (hstep : s.SameBefore t x i) : s.Together t x i y fy := by
  -- an iterate of the one search up to the `i`-th one is an iterate of the other
  have hiterates : ∀ k ≤ i, ∀ z, s.Iterates x k z → t.Iterates x k z := by
    intro k hk z hz
    apply hz.of_advance_eq h
    intro m hm w fw hw hf
    exact hstep.advance_eq hy (Nat.lt_of_lt_of_le hm hk) hw hf
  have hbefore : t.RejectsBefore x i := by
    intro k hk
    obtain ⟨z, hz, r, ⟨fz, hf, hfin, hr⟩, hle⟩ := hy.rejected_before k hk
    exact ⟨z, hiterates k hk.le z hz, r, ⟨fz, h.function ▸ hf, hfin, hr⟩, h.tolerance ▸ hle⟩
  obtain ⟨hvalid, hx⟩ : t.config.validate = .ok () ∧ isFinite x = true := by
    apply checkStart_eq_ok_iff.mp
    rw [h.start]
    exact checkStart_eq_ok_iff.mpr ⟨hy.valid, hy.start_finite⟩
  obtain ⟨lines, hlines⟩ := exists_lines_report hy
  refine ⟨hy, ?_, ?_, lines, ?_, ?_⟩
  · exact ⟨⟨hvalid, hx, hiterates i (Nat.le_refl i) y hy.iterate, hy.finite, hbefore,
      h.budget ▸ hy.within_budget⟩, h.function ▸ hy.value, hy.value_finite,
      h.tolerance ▸ hy.rejected, h.budget ▸ hy.more⟩
  · intro k hk
    obtain ⟨z, fz, hz, hf, hfin⟩ : ∃ z fz, s.Iterates x k z ∧ s.function z = .ok fz
        ∧ isFinite fz = true := by
      rcases Nat.lt_or_eq_of_le hk with hk | rfl
      · obtain ⟨z, fz, hz⟩ := hy.exists_stepsFrom hk
        exact ⟨z, fz, hz.iterate, hz.value, hz.value_finite⟩
      · exact ⟨y, fy, hy.iterate, hy.value, hy.value_finite⟩
    exact ⟨z, norm fz, hz, hiterates k hk z hz, ⟨fz, hf, hfin, rfl⟩,
      ⟨fz, h.function ▸ hf, hfin, rfl⟩⟩
  · exact hlines s ⟨fun _ => rfl, rfl, rfl, rfl⟩ fun _ _ _ _ _ => rfl
  · exact hlines t h hstep

end Solver

end NewtonMethod
