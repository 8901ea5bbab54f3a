/-
NewtonMethod/Proofs/Course.lean

The course of a search, as its journal tells it.

The journal of a search is made of what its parts write, and each part writes
little:

    derivative     the request, then what it evaluates             `exists_journal_at`
    step           that, then the events of the step, then the     `exists_journal_advance`
                   announcement of an error if it ends with one
    search         the test of each iterate and the step from it   `course_search`

`StepEvents` says which events a step has, and `announcements` which event an
outcome is announced by.  `Course s i x j o` says that `j` and `o` are the journal
and the outcome of a search that is at its `i`-th point `x`.  It has a constructor
for each way to go on from there, so that what holds of every search is shown by
an induction on it.
-/
import NewtonMethod.Proofs.FailureReport

namespace NewtonMethod

open Run PointSpace

/-! ### Journals of runs -/

namespace Run

variable {α β γ : Type}

/-- Every line of the journal is as `p` says. -/
def Writes (p : Entry α → Prop) (r : Run α β) : Prop := ∀ line ∈ r.journal, p line

/-- A run in two parts writes such lines if both parts do; the second may not come about. -/
theorem Writes.bind {p : Entry α → Prop} {r : Run α β} {k : β → Run α γ} (hr : r.Writes p)
    (hk : ∀ b, (k b).Writes p) : (r >>= k).Writes p := by
  -- if the first part stops, its journal is the whole
  rcases h : r.outcome with stop | b
  · rw [bind_of_error h]
    exact hr
  · rw [bind_of_ok h]
    exact fun line hline => (List.mem_append.mp hline).elim (hr line) (hk b line)

theorem writes_pure (p : Entry α → Prop) (b : β) : (pure b : Run α β).Writes p :=
  fun _ h => nomatch h

theorem writes_ofExcept (p : Entry α → Prop) (e : Except ShapeFault β) :
    (ofExcept e : Run α β).Writes p := by
  rcases e with f | b <;> exact fun _ h => nomatch h

theorem writes_evaluate {X : Type} {p : Entry α → Prop} {record : Entry α} (h : p record)
    (f : X → Except ShapeFault β) (x : X) : (evaluate record f x).Writes p :=
  Writes.bind (List.forall_mem_singleton.mpr h) fun _ => writes_ofExcept p _

theorem Writes.mapM {p : Entry α → Prop} {f : β → Run α γ} (hf : ∀ b, (f b).Writes p)
    (l : List β) : (l.mapM f).Writes p := by
  induction l with
  | nil => exact writes_pure p []
  | cons b l ih =>
    rw [List.mapM_cons]
    exact (hf b).bind fun _ => ih.bind fun _ => writes_pure p _

theorem evaluate_of_ok {X : Type} {f : X → Except ShapeFault β} {x : X} {b : β}
    (h : f x = .ok b) (record : Entry α) : evaluate record f x = ⟨[record], .ok b⟩ := by
  rw [evaluate, h]
  rfl

theorem evaluate_of_error {X : Type} {f : X → Except ShapeFault β} {x : X} {fault : ShapeFault}
    (h : f x = .error fault) (record : Entry α) :
    evaluate record f x = ⟨[record], .error (.fault fault)⟩ := by
  rw [evaluate, h]
  rfl

/-- An evaluation writes one line, whether it has a value or not. -/
theorem journal_evaluate {X : Type} (record : Entry α) (f : X → Except ShapeFault β) (x : X) :
    (evaluate record f x).journal = [record] := by
  rcases h : f x with fault | b
  · rw [evaluate_of_error h]
  · rw [evaluate_of_ok h]

/-- If every part writes the same line `k` times, the whole does so `k` times for each part. -/
theorem journal_mapM {f : β → Run α γ} {line : Entry α} {k : Nat} {l : List β} {cs : List γ}
    (hf : ∀ b c, (f b).outcome = .ok c → (f b).journal = List.replicate k line)
    (h : (l.mapM f).outcome = .ok cs) :
    (l.mapM f).journal = List.replicate (k * l.length) line := by
  induction l generalizing cs with
  | nil => rfl
  | cons b l ih =>
    rw [List.mapM_cons] at h ⊢
    obtain ⟨c, hc, h⟩ := bind_eq_ok_iff.mp h
    obtain ⟨ds, hds, -⟩ := bind_eq_ok_iff.mp h
    -- the first entry writes `k` lines, the others `k` each
    rw [bind_of_ok hc, bind_of_ok hds, hf b c hc, ih hds]
    show List.replicate k line ++ (List.replicate (k * l.length) line ++ []) = _
    rw [List.append_nil, List.replicate_append_replicate, List.length_cons, Nat.mul_succ,
      Nat.add_comm]

end Run

/-! ### The journal of a derivative -/

namespace Derivative

variable {X α J : Type}

/-- The function is evaluated next to a point, or the derivative is evaluated. -/
def IsSample (line : Entry α) : Prop := line = .difference ∨ line = .slope

/-- The lines of a derivative at a point with `n` coordinates, after the request. -/
def samples (d : Derivative X α J) (n : Nat) : Journal α :=
  match d with
  | .differences ⟨_, .forward⟩ => List.replicate n .difference
  | .differences ⟨_, .central⟩ => List.replicate (2 * n) .difference
  | .function _ => [.slope]

end Derivative

section Derivative

variable {X α J : Type} [Arithmetic α] [PointSpace X α J] {f : X → Except ShapeFault X}
  {x fx y : X} {h : α} {i : Nat}

namespace Differences

omit [Arithmetic α] in
/-- A sample that has a value has cost one evaluation. -/
theorem sample_of_ok (hy : (sample f x i h).outcome = .ok y) :
    sample f x i h = ⟨[.difference], .ok y⟩ := by
  rw [sample] at hy ⊢
  obtain ⟨moved, hmoved, hvalue⟩ := bind_eq_ok_iff.mp hy
  rw [bind_of_ok hmoved, hvalue, journal_evaluate, ofExcept_eq_ok_iff.mp hmoved]
  rfl

omit [Arithmetic α] in
theorem writes_sample (f : X → Except ShapeFault X) (x : X) (i : Nat) (h : α) :
    (sample f x i h).Writes Derivative.IsSample :=
  (writes_ofExcept _ _).bind fun _ => writes_evaluate (.inl rfl) f _

omit [Arithmetic α] in
theorem writes_tabulate {column : Nat → Run α X}
    (hcolumn : ∀ i, (column i).Writes Derivative.IsSample) :
    (tabulate x fx column : Run α J).Writes Derivative.IsSample :=
  (Writes.mapM hcolumn _).bind fun _ => writes_ofExcept _ _

omit [Arithmetic α] in
/-- A table that has a value has cost as much for each coordinate as a column does. -/
theorem journal_tabulate {column : Nat → Run α X} {k : Nat} {jacobian : J}
    (hcolumn : ∀ i y, (column i).outcome = .ok y →
      (column i).journal = List.replicate k .difference)
    (hok : (tabulate x fx column : Run α J).outcome = .ok jacobian) :
    (tabulate x fx column : Run α J).journal = List.replicate (k * dimension x) .difference := by
  rw [tabulate] at hok ⊢
  obtain ⟨columns, hcolumns, hvalue⟩ := bind_eq_ok_iff.mp hok
  rw [bind_of_ok hcolumns, journal_mapM hcolumn hcolumns, List.length_range,
    ofExcept_eq_ok_iff.mp hvalue]
  exact List.append_nil _

end Differences

open Differences

omit [Arithmetic α] [PointSpace X α J] in
/-- The request is one line before those of the run that follows. -/
theorem exists_journal_request {r : Run α J} {samples : Journal α}
    (hwrites : r.Writes Derivative.IsSample)
    (hsamples : ∀ jacobian, r.outcome = .ok jacobian → r.journal = samples) :
    ∃ lines, (note .request >>= fun _ => r).journal = .request :: lines
      ∧ (∀ line ∈ lines, Derivative.IsSample line)
      ∧ ∀ jacobian, (note .request >>= fun _ => r).outcome = .ok jacobian → lines = samples := by
  rw [bind_of_ok rfl]
  exact ⟨r.journal, rfl, hwrites, hsamples⟩

/-- A derivative writes the request for it and then nothing but evaluations, which are as many as
its kind needs if it has a value. -/
theorem exists_journal_at (d : Derivative X α J) (f : X → Except ShapeFault X) (x fx : X) :
    ∃ lines, (d.at f x fx).journal = .request :: lines
      ∧ (∀ line ∈ lines, Derivative.IsSample line)
      ∧ ∀ jacobian, (d.at f x fx).outcome = .ok jacobian → lines = d.samples (dimension x) := by
  rcases d with ⟨h, _ | _⟩ | slope
  · -- forward differences
    refine exists_journal_request (writes_tabulate fun i => ?_) fun jacobian hok => ?_
    · exact (writes_sample f x i h).bind fun _ =>
        (writes_ofExcept _ _).bind fun _ => writes_pure _ _
    · rw [Derivative.samples, ← one_mul (dimension x)]
      refine journal_tabulate (fun i y hy => ?_) hok
      obtain ⟨ahead, hahead, hy⟩ := bind_eq_ok_iff.mp hy
      obtain ⟨rise, hrise, -⟩ := bind_eq_ok_iff.mp hy
      rw [forwardColumn, bind_of_ok hahead, bind_of_ok hrise, sample_of_ok hahead,
        ofExcept_eq_ok_iff.mp hrise]
      rfl
  · -- central differences
    refine exists_journal_request (writes_tabulate fun i => ?_) fun jacobian hok => ?_
    · exact (writes_sample f x i h).bind fun _ => (writes_sample f x i (-h)).bind fun _ =>
        (writes_ofExcept _ _).bind fun _ => writes_pure _ _
    · refine journal_tabulate (fun i y hy => ?_) hok
      obtain ⟨ahead, hahead, hy⟩ := bind_eq_ok_iff.mp hy
      obtain ⟨behind, hbehind, hy⟩ := bind_eq_ok_iff.mp hy
      obtain ⟨rise, hrise, -⟩ := bind_eq_ok_iff.mp hy
      rw [centralColumn, bind_of_ok hahead, bind_of_ok hbehind, bind_of_ok hrise,
        sample_of_ok hahead, sample_of_ok hbehind, ofExcept_eq_ok_iff.mp hrise]
      rfl
  · -- a function of its own
    exact exists_journal_request (writes_evaluate (.inr rfl) slope x) fun _ _ =>
      journal_evaluate .slope slope x

end Derivative

/-! ### Announcements -/

/-- The event that announces an error.  How the iteration of a value that is not finite is told
depends on who looks at the value. -/
def SolveError.announcement {α : Type} (told : Nat → Option Nat) : SolveError α → Event α
  | maxIterationsExceeded n r _ => .exhausted n r
  | singularDerivative i _ => .singular i
  | nonFiniteValue .initialGuess _ _ => .startNotFinite
  | nonFiniteValue .function i _ => .nonFiniteFunction (told i)
  | nonFiniteValue .derivative i _ => .nonFiniteDerivative i
  | diverged i _ => .overflowed i
  | dimensionMismatch rows cols residual => .shapeMismatch rows cols residual
  | invalidConfig fault => .configRejected fault

/-- The error ends a search before anything is evaluated. -/
def SolveError.precedesSearch {α : Type} : SolveError α → Bool
  | maxIterationsExceeded 0 _ _ => true
  | nonFiniteValue .initialGuess _ _ => true
  | invalidConfig _ => true
  | _ => false

/-- The announcements of an outcome: one if it is an error of the solver. -/
def announcements {α β : Type} (told : Nat → Option Nat) :
    Except (Stop α) β → List (Event α)
  | .error (.failure e) => [e.announcement told]
  | .error (.fault _) => []
  | .ok _ => []

namespace Solver

variable {X α J : Type} [Arithmetic α] [PointSpace X α J] {s : Solver X α J} {i : Nat}
  {x fx : X}

/-! ### The journal of a step -/

/-- The step at `x`, where the function has the value `fx`, is `delta`, whatever the trust
radius. -/
def HasStep (s : Solver X α J) (x fx delta : X) : Prop :=
  ∃ jacobian, s.HasSlope x fx jacobian
    ∧ solveLinear jacobian fx s.config.singularityTolerance = .ok delta

/-- There is an event for a step that is longer than the trust radius. -/
def clampEvents (s : Solver X α J) (delta : X) : List (Event α) :=
  match s.config.maxRadius with
  | none => []
  | some radius => if Arithmetic.lt radius (norm delta) then [.clamped (norm delta) radius] else []

/-- The events of the step from `x` in iteration `i`, up to the announcement of an error. -/
inductive StepEvents (s : Solver X α J) (i : Nat) (x fx : X) : List (Event α) → Prop
  | unsolved (none : ∀ delta, ¬s.HasStep x fx delta) : StepEvents s i x fx []
  | stopped {delta : X} (step : s.HasStep x fx delta)
      (stops : ∀ y, (s.advance i x fx).outcome ≠ .ok y) :
      StepEvents s i x fx (s.clampEvents delta)
  | taken {delta y : X} (step : s.HasStep x fx delta) (leads : (s.advance i x fx).outcome = .ok y) :
      StepEvents s i x fx (s.clampEvents delta ++ [.step i (norm (s.clamped delta))])

theorem journal_clamp (s : Solver X α J) (delta : X) :
    (s.clamp delta).journal = (s.clampEvents delta).map .event := by
  rw [clamp, clampEvents]
  rcases s.config.maxRadius with - | radius
  · rfl
  · dsimp only
    split
    next => rfl
    next => rfl

/-- If there is a derivative, there is a step exactly if it is finite and the equation can be
solved. -/
theorem hasStep_iff {jacobian : J} {delta : X}
    (hslope : (s.derivative.at s.function x fx).outcome = .ok jacobian) :
    s.HasStep x fx delta ↔ isFiniteDerivative X jacobian = true
      ∧ solveLinear jacobian fx s.config.singularityTolerance = .ok delta := by
  constructor
  · rintro ⟨j, ⟨hj, hfin⟩, hsolve⟩
    obtain rfl : jacobian = j := Except.ok.inj (hslope.symm.trans hj)
    exact ⟨hfin, hsolve⟩
  · rintro ⟨hfin, hsolve⟩
    exact ⟨jacobian, ⟨hslope, hfin⟩, hsolve⟩

theorem derivativeAt_of_isFinite {jacobian : J} (h : s.HasSlope x fx jacobian) :
    s.derivativeAt i x fx = ⟨(s.derivative.at s.function x fx).journal, .ok jacobian⟩ := by
  obtain ⟨hslope, hfin⟩ := h
  rw [derivativeAt, bind_of_ok hslope, if_pos hfin]
  exact congrArg (Run.mk · _) (List.append_nil _)

/-- A step whose equation is solved writes the lines of the derivative, the event of the clamp and
what the move writes. -/
theorem advance_of_hasStep {delta : X} (h : s.HasStep x fx delta) :
    s.advance i x fx
      = ⟨(s.derivative.at s.function x fx).journal
          ++ ((s.clampEvents delta).map .event ++ (move i x (s.clamped delta) : Run α X).journal),
        (move i x (s.clamped delta)).outcome⟩ := by
  obtain ⟨jacobian, hslope, hsolve⟩ := h
  have hsolution : s.solution i x fx jacobian = pure delta := by
    rw [solution, hsolve]
  rw [advance, derivativeAt_of_isFinite hslope, bind_of_ok rfl, hsolution, pure_bind',
    bind_of_ok (outcome_clamp s delta), journal_clamp]

omit [Arithmetic α] in
theorem journal_move_of_ok {delta y : X} (h : (move i x delta : Run α X).outcome = .ok y) :
    (move i x delta : Run α X).journal = [.event (.step i (norm delta))] := by
  obtain ⟨hmove, hfin⟩ := move_eq_ok_iff.mp h
  rw [move, hmove]
  show (pure y >>= _ : Run α X).journal = _
  rw [pure_bind', if_pos (Bool.and_eq_true_iff.mpr hfin)]
  rfl

omit [Arithmetic α] in
/-- A move that ends with an error announces it; points that cannot be subtracted are a fault. -/
theorem journal_move_of_error {delta : X} {stop : Stop α}
    (h : (move i x delta : Run α X).outcome = .error stop) :
    (move i x delta : Run α X).journal
      = (announcements some (.error stop : Except (Stop α) X)).map .event := by
  -- points of different lengths, or a point that is not finite
  rcases move_eq_error_iff.mp h with ⟨f, hmove, rfl⟩ | ⟨next, hmove, hbad, rfl⟩
  · rw [move, hmove]
    rfl
  · rw [move, hmove]
    show (pure next >>= _ : Run α X).journal = _
    rw [pure_bind', if_neg (Bool.eq_false_iff.mp (Bool.and_eq_false_iff.mpr hbad))]
    rfl

/-- A step writes the lines of the derivative, then its events, and then the announcement of the
error that it ends with. -/
theorem exists_journal_advance (s : Solver X α J) (i : Nat) (x fx : X) :
    ∃ es, s.StepEvents i x fx es
      ∧ (s.advance i x fx).journal = (s.derivative.at s.function x fx).journal
          ++ (es ++ announcements some (s.advance i x fx).outcome).map .event := by
  rcases hslope : (s.derivative.at s.function x fx).outcome with (f | e) | jacobian
  · -- there is no derivative
    refine ⟨[], .unsolved ?_, ?_⟩
    · rintro delta ⟨jacobian, ⟨h, -⟩, -⟩
      rw [hslope] at h
      cases h
    · rw [advance, derivativeAt, bind_of_error hslope, bind_of_error rfl]
      exact (List.append_nil _).symm
  · exact absurd hslope (onlyFaults_at s.derivative s.function x fx e)
  rcases hfin : isFiniteDerivative X jacobian with - | -
  · -- the derivative is not finite
    refine ⟨[], .unsolved fun delta h => ?_, ?_⟩
    · rw [((hasStep_iff hslope).mp h).1] at hfin
      cases hfin
    · rw [advance, derivativeAt, bind_of_ok hslope, if_neg (Bool.eq_false_iff.mp hfin),
        bind_of_error rfl]
      rfl
  rcases hsolve : solveLinear jacobian fx s.config.singularityTolerance with failure | delta
  · -- the equation is not solved
    refine ⟨[], .unsolved fun delta h => ?_, ?_⟩
    · rw [((hasStep_iff hslope).mp h).2] at hsolve
      cases hsolve
    · rw [advance, derivativeAt_of_isFinite ⟨hslope, hfin⟩, bind_of_ok rfl, solution, hsolve]
      rcases failure with - | ⟨rows, cols, residual⟩ <;> rfl
  · -- the equation is solved, and all that can fail is the move
    have hstep : s.HasStep x fx delta := ⟨jacobian, ⟨hslope, hfin⟩, hsolve⟩
    have hadvance := advance_of_hasStep (i := i) hstep
    rcases hmove : (move i x (s.clamped delta) : Run α X).outcome with stop | y
    · rw [hmove, journal_move_of_error hmove] at hadvance
      refine ⟨s.clampEvents delta, .stopped hstep fun y h => ?_, ?_⟩
      · rw [hadvance] at h
        cases h
      · rw [hadvance, List.map_append]
    · rw [hmove, journal_move_of_ok hmove] at hadvance
      refine ⟨_, .taken (y := y) hstep ?_, ?_⟩
      · rw [hadvance]
      · rw [hadvance, announcements, List.append_nil, List.map_append]
        rfl

/-! ### The journal of a search -/

/-- `Ends s i x j o`: a search that is at `x`, its `i`-th point, ends there with `o`, having written
`j`. -/
inductive Ends (s : Solver X α J) (i : Nat) (x : X) :
    Journal α → Except (Stop α) (Report X α) → Prop
  | fault {f : ShapeFault} (value : s.function x = .error f) :
      Ends s i x [.residual] (.error (.fault f))
  | notFinite {fx : X} (value : s.function x = .ok fx) (value_not_finite : isFinite fx = false) :
      Ends s i x [.residual, .event (.nonFiniteFunction (some i))]
        (.error (.failure (.nonFiniteValue .function i (coordinates x))))
  | found {r : α} (accepted : s.Accepts x r) :
      Ends s i x [.residual, .event (.residual i r)] (.ok ⟨x, i, r⟩)
  | exhausted {r : α} (residual : s.HasResidual x r)
      (rejected : Arithmetic.le r s.config.tolerance = false)
      (last : i + 1 = s.config.maxIterations) :
      Ends s i x
        [.residual, .event (.residual i r), .event (.exhausted s.config.maxIterations r)]
        (.error (.failure
          (.maxIterationsExceeded s.config.maxIterations r (coordinates x))))
  | stops {fx : X} {stop : Stop α} (value : s.function x = .ok fx)
      (value_finite : isFinite fx = true)
      (rejected : Arithmetic.le (norm fx) s.config.tolerance = false)
      (more : i + 1 < s.config.maxIterations)
      (step : (s.advance i x fx).outcome = .error stop) :
      Ends s i x (.residual :: .event (.residual i (norm fx)) :: (s.advance i x fx).journal)
        (.error stop)

/-- `Course s i x j o`: a search that is at `x`, its `i`-th point, ends with `o` there or later and
writes `j` until then. -/
inductive Course (s : Solver X α J) :
    Nat → X → Journal α → Except (Stop α) (Report X α) → Prop
  | ends {i : Nat} {x : X} {j : Journal α} {o : Except (Stop α) (Report X α)}
      (last : s.Ends i x j o) : Course s i x j o
  | steps {i : Nat} {x fx y : X} {j : Journal α} {o : Except (Stop α) (Report X α)}
      (value : s.function x = .ok fx) (value_finite : isFinite fx = true)
      (rejected : Arithmetic.le (norm fx) s.config.tolerance = false)
      (more : i + 1 < s.config.maxIterations)
      (step : (s.advance i x fx).outcome = .ok y) (rest : Course s (i + 1) y j o) :
      Course s i x
        (.residual :: .event (.residual i (norm fx)) :: ((s.advance i x fx).journal ++ j)) o

/-- The end of a search with an error is the stop of its last point. -/
theorem Ends.stopsAt {j : Journal α} {stop : Stop α} (h : s.Ends i x j (.error stop)) :
    s.StopsAt i x stop := by
  cases h with
  | fault hf => exact .fault hf
  | notFinite hf hbad => exact .notFinite hf hbad
  | exhausted hr hreject hlast => exact .exhausted hr hreject hlast
  | stops hf hfin hreject hmore hstep =>
    exact .step hf hfin hreject hmore (advance_eq_error_iff.mp hstep)

omit [Arithmetic α] in
/-- A test without a value is recorded as an evaluation, and has no event. -/
theorem test_of_fault {f : ShapeFault} (hf : s.function x = .error f) :
    s.test i x = ⟨[.residual], .error (.fault f)⟩ := by
  rw [test, evaluate_of_error hf, bind_of_error rfl]

omit [Arithmetic α] in
/-- A value that is not finite is announced with the number of its point. -/
theorem test_of_not_isFinite (hf : s.function x = .ok fx) (hbad : isFinite fx = false) :
    s.test i x = ⟨[.residual, .event (.nonFiniteFunction (some i))],
      .error (.failure (.nonFiniteValue .function i (coordinates x)))⟩ := by
  have hcheck : (checkResidual x fx (some i) i : Run α Unit)
      = fail (.nonFiniteFunction (some i)) (.nonFiniteValue .function i (coordinates x)) :=
    if_neg (Bool.eq_false_iff.mp hbad)
  rw [test, evaluate_of_ok hf, bind_of_ok rfl]
  dsimp only
  rw [hcheck]
  rfl

/-- A turn ends the search, or it rejects its point and the search goes on as `next` says. -/
theorem course_turn {next : X → α → Run α (Report X α)}
    (hnext : ∀ fx, s.function x = .ok fx → isFinite fx = true →
      Arithmetic.le (norm fx) s.config.tolerance = false →
        s.Course i x (.residual :: .event (.residual i (norm fx)) :: (next fx (norm fx)).journal)
          (next fx (norm fx)).outcome) :
    s.Course i x (s.turn i x next).journal (s.turn i x next).outcome := by
  rcases hf : s.function x with f | fx
  · rw [turn, test_of_fault hf, bind_of_error rfl]
    exact .ends (.fault hf)
  -- a value that is not finite is announced by the test already
  rcases hfin : isFinite fx with - | -
  · rw [turn, test_of_not_isFinite hf hfin, bind_of_error rfl]
    exact .ends (.notFinite hf hfin)
  rw [turn, test_of_isFinite hf hfin, bind_of_ok rfl]
  dsimp only
  rcases hle : Arithmetic.le (norm fx) s.config.tolerance with - | -
  · exact hnext fx hf hfin hle
  · exact .ends (.found ⟨⟨fx, hf, hfin, rfl⟩, hle⟩)

/-- A search takes its course.  The induction is on the number of points that are left. -/
theorem course_search {n : Nat} (hn : i + n + 1 = s.config.maxIterations) :
    s.Course i x (s.search n i x).journal (s.search n i x).outcome := by
  induction n generalizing i x with
  | zero =>
    rw [search_zero]
    exact course_turn fun fx hf hfin hle => .ends (.exhausted ⟨fx, hf, hfin, rfl⟩ hle hn)
  | succ n ih =>
    rw [search_succ]
    refine course_turn fun fx hf hfin hle => ?_
    rcases hadvance : (s.advance i x fx).outcome with stop | y
    · rw [bind_of_error hadvance]
      exact .ends (.stops hf hfin hle (by omega) hadvance)
    · -- the journal goes on with that of the search from `y`, which has one point less
      rw [bind_of_ok hadvance]
      exact .steps hf hfin hle (by omega) hadvance (ih (by omega))

/-- A start passes the checks, or it is refused with an error that is announced. -/
theorem checkStart_cases (told : Nat → Option Nat) (s : Solver X α J) (x : X) :
    (s.config.validate = .ok () ∧ isFinite x = true)
    ∨ ∃ e : SolveError α, e.precedesSearch = true
        ∧ s.checkStart x = fail (e.announcement told) e
        ∧ ¬(s.config.validate = .ok () ∧ isFinite x = true) := by
  rcases hvalid : s.config.validate with fault | ⟨⟩
  · refine .inr ⟨.invalidConfig fault, rfl, ?_, fun h => ?_⟩
    · rw [checkStart, hvalid]
      rfl
    · cases h.1
  rcases hx : isFinite x with - | -
  · refine .inr ⟨.nonFiniteValue .initialGuess 0 (coordinates x), rfl, ?_, fun h => ?_⟩
    · rw [checkStart, hvalid]
      exact if_neg (Bool.eq_false_iff.mp hx)
    · cases h.2
  · exact .inl ⟨rfl, rfl⟩

/-- A search is refused, or it has no budget, or it takes its course from its start on. -/
theorem course_report (s : Solver X α J) (x : X) :
    (∃ e : SolveError α, e.precedesSearch = true
      ∧ s.report x = fail (e.announcement some) e ∧ ∀ i y, ¬s.Tests x i y)
    ∨ (s.config.validate = .ok () ∧ isFinite x = true ∧ 0 < s.config.maxIterations
      ∧ s.Course 0 x (s.report x).journal (s.report x).outcome) := by
  rcases checkStart_cases some s x with ⟨hvalid, hx⟩ | ⟨e, he, hfail, hrefused⟩
  · have hstart := checkStart_eq_pure hvalid hx
    -- without a budget the exhaustion is announced before any test
    rcases hmax : s.config.maxIterations with - | n
    · refine .inl ⟨.maxIterationsExceeded 0 Arithmetic.nan (coordinates x), rfl, ?_,
        fun i y h => absurd h.within_budget (hmax ▸ Nat.not_lt_zero i)⟩
      rw [report_eq_exhausted hstart hmax, exhausted, hmax]
      rfl
    · refine .inr ⟨hvalid, hx, n.succ_pos, ?_⟩
      rw [report_eq_search hstart hmax]
      exact course_search (by omega)
  · refine .inl ⟨e, he, ?_, fun i y h => hrefused ⟨h.valid, h.start_finite⟩⟩
    rw [report, hfail]
    rfl

end Solver

end NewtonMethod
