/-
NewtonMethod/Proofs/Outcome.lean

How the parts of a search end, leaving their journals aside.

A run made of two has a value exactly if both have one (`bind_eq_ok_iff`).  So
each operation of a solver has a value under plain conditions on the function,
the derivative and the space, and these are collected here, one lemma for each
operation up to `advance_eq_ok_iff`.  Nothing is assumed of the arithmetic or
of the space.

An error names the iteration it happened in.  `SolveError.shift k` numbers it
as a search would that has `k` iterations behind it, and the iteration is all
that a step does with its number: `advance` in iteration `i + k` ends as it does
in iteration `i`, up to that shift (`later_advance`).  The derivative cannot end
with an error of the solver at all (`onlyFaults_at`).
-/
import NewtonMethod.Solver

namespace NewtonMethod

open PointSpace

/-! ### The outcome of a run -/

namespace Run

variable {α β γ : Type}

@[simp] theorem outcome_pure (b : β) : (pure b : Run α β).outcome = .ok b := rfl

@[simp] theorem outcome_note (e : Entry α) : (note e).outcome = .ok () := rfl

@[simp] theorem outcome_log (e : Event α) : (log e).outcome = .ok () := rfl

@[simp] theorem outcome_fail (a : Event α) (e : SolveError α) :
    (fail a e : Run α β).outcome = .error (.failure e) := rfl

/-- The second run is looked at only if the first one has a value. -/
theorem outcome_bind (r : Run α β) (k : β → Run α γ) :
    (r >>= k).outcome = r.outcome.bind fun b => (k b).outcome := by
  rcases h : r.outcome with s | b
  · rw [bind_of_error h]
    rfl
  · rw [bind_of_ok h]
    rfl

/-- A run made of two has a value exactly if both have one. -/
theorem bind_eq_ok_iff {r : Run α β} {k : β → Run α γ} {c : γ} :
    (r >>= k).outcome = .ok c ↔ ∃ b, r.outcome = .ok b ∧ (k b).outcome = .ok c := by
  rw [outcome_bind]
  rcases r.outcome with s | b <;> simp [Except.bind]

/-- A run made of two stops where the first one stops, or else where the second does. -/
theorem bind_eq_error_iff {r : Run α β} {k : β → Run α γ} {s : Stop α} :
    (r >>= k).outcome = .error s
      ↔ r.outcome = .error s ∨ ∃ b, r.outcome = .ok b ∧ (k b).outcome = .error s := by
  rw [outcome_bind]
  rcases r.outcome with t | b <;> simp [Except.bind]

theorem ofExcept_eq_ok_iff {e : Except ShapeFault β} {b : β} :
    (ofExcept e : Run α β).outcome = .ok b ↔ e = .ok b := by
  rcases e with f | c <;> simp [ofExcept]

/-- What a computation outside of a run can find is a fault only. -/
theorem ofExcept_eq_error_iff {e : Except ShapeFault β} {s : Stop α} :
    (ofExcept e : Run α β).outcome = .error s ↔ ∃ f, e = .error f ∧ s = .fault f := by
  rcases e with f | c <;> simp [ofExcept, @eq_comm _ s]

@[simp] theorem outcome_evaluate {X : Type} (record : Entry α) (f : X → Except ShapeFault β)
    (x : X) : (evaluate record f x).outcome = (ofExcept (f x) : Run α β).outcome := by
  rw [evaluate, outcome_bind]
  rfl

/-- Runs for the elements of a list have the list of their values. -/
theorem outcome_mapM {f : β → Run α γ} {g : β → γ} {l : List β}
    (h : ∀ b ∈ l, (f b).outcome = .ok (g b)) : (l.mapM f).outcome = .ok (l.map g) := by
  induction l with
  | nil => rfl
  | cons b l ih =>
    obtain ⟨hb, hl⟩ := List.forall_mem_cons.mp h
    rw [List.mapM_cons]
    exact bind_eq_ok_iff.mpr ⟨g b, hb, bind_eq_ok_iff.mpr ⟨l.map g, ih hl, rfl⟩⟩

/-! ### Runs that end with a value or a fault -/

/-- The run does not end with an error of the solver. -/
def OnlyFaults (r : Run α β) : Prop := ∀ e, r.outcome ≠ .error (.failure e)

theorem onlyFaults_pure (b : β) : OnlyFaults (pure b : Run α β) := fun _ h => nomatch h

theorem onlyFaults_note (e : Entry α) : OnlyFaults (note e) := fun _ h => nomatch h

theorem onlyFaults_ofExcept (e : Except ShapeFault β) : OnlyFaults (ofExcept e : Run α β) := by
  rcases e with f | b <;> exact fun _ h => nomatch h

/-- The property goes through from the parts to the whole. -/
theorem OnlyFaults.bind {r : Run α β} {k : β → Run α γ} (hr : OnlyFaults r)
    (hk : ∀ b, OnlyFaults (k b)) : OnlyFaults (r >>= k) := by
  intro e h
  rw [outcome_bind] at h
  -- the error would have to come from one of the two runs
  rcases hrun : r.outcome with s | b
  · rw [hrun] at h
    obtain rfl : s = .failure e := Except.error.inj h
    exact hr e hrun
  · rw [hrun] at h
    exact hk b e h

theorem onlyFaults_evaluate {X : Type} (record : Entry α) (f : X → Except ShapeFault β) (x : X) :
    OnlyFaults (evaluate record f x) :=
  (onlyFaults_note record).bind fun _ => onlyFaults_ofExcept (f x)

theorem OnlyFaults.mapM {f : β → Run α γ} (hf : ∀ b, OnlyFaults (f b)) (l : List β) :
    OnlyFaults (l.mapM f) := by
  induction l with
  | nil => exact onlyFaults_pure []
  | cons b l ih =>
    rw [List.mapM_cons]
    exact (hf b).bind fun _ => ih.bind fun _ => onlyFaults_pure _

end Run

/-! ### The number of an iteration -/

/-- The error of a search that has `k` iterations behind it.  Only an error that happens in one
iteration has a number. -/
def SolveError.shift {α : Type} (k : Nat) : SolveError α → SolveError α
  | maxIterationsExceeded n r x => maxIterationsExceeded n r x
  | singularDerivative i x => singularDerivative (i + k) x
  | nonFiniteValue stage i x => nonFiniteValue stage (i + k) x
  | diverged i x => diverged (i + k) x
  | dimensionMismatch rows cols residual => dimensionMismatch rows cols residual
  | invalidConfig fault => invalidConfig fault

/-- A stop of a search that has `k` iterations behind it. -/
def Stop.shift {α : Type} (k : Nat) : Stop α → Stop α
  | fault f => fault f
  | failure e => failure (e.shift k)

namespace Run

variable {α β γ : Type} {k : Nat}

/-- The second run ends as the first one does, `k` iterations later. -/
def Later (k : Nat) (r r' : Run α β) : Prop := r'.outcome = r.outcome.mapError (Stop.shift k)

theorem later_pure (b : β) : Later k (pure b : Run α β) (pure b) := rfl

/-- An error that is numbered later is the same error in a later iteration. -/
theorem later_fail {a a' : Event α} {e e' : SolveError α} (h : e' = e.shift k) :
    Later k (fail a e : Run α β) (fail a' e') := by
  rw [h]
  rfl

/-- A run that cannot end with an error has no iteration to number. -/
theorem OnlyFaults.later {r : Run α β} (h : OnlyFaults r) : Later k r r := by
  rcases hrun : r.outcome with (f | e) | b
  · rw [Later, hrun]
    rfl
  · exact absurd hrun (h e)
  · rw [Later, hrun]
    rfl

/-- Two runs of which each part ends later end later. -/
theorem Later.bind {r r' : Run α β} {c c' : β → Run α γ} (hr : Later k r r')
    (hc : ∀ b, Later k (c b) (c' b)) : Later k (r >>= c) (r' >>= c') := by
  rw [Later, outcome_bind, outcome_bind, show r'.outcome = _ from hr]
  rcases r.outcome with s | b
  · rfl
  · exact hc b

end Run

/-! ### The parts of a step -/

section Derivative

variable {X α J : Type} [Arithmetic α] [PointSpace X α J]

open Run Differences

omit [Arithmetic α] in
/-- What can go wrong at a neighbouring point is in the function or in the shape of the point. -/
theorem Differences.onlyFaults_sample (f : X → Except ShapeFault X) (x : X) (i : Nat) (h : α) :
    OnlyFaults (sample f x i h) :=
  (onlyFaults_ofExcept _).bind fun _ => onlyFaults_evaluate _ f _

omit [Arithmetic α] in
theorem Differences.onlyFaults_tabulate {x fx : X} {column : Nat → Run α X}
    (h : ∀ i, OnlyFaults (column i)) : OnlyFaults (tabulate x fx column : Run α J) :=
  (OnlyFaults.mapM h _).bind fun _ => onlyFaults_ofExcept _

/-- A derivative is a value, or the evaluation of the function or of the slope has failed. -/
theorem onlyFaults_at (d : Derivative X α J) (f : X → Except ShapeFault X) (x fx : X) :
    OnlyFaults (d.at f x fx) := by
  refine (onlyFaults_note _).bind fun _ => ?_
  rcases d with ⟨h, _ | _⟩ | slope
  · -- forward differences
    refine onlyFaults_tabulate fun i => ?_
    exact (onlyFaults_sample f x i h).bind fun _ =>
      (onlyFaults_ofExcept _).bind fun _ => onlyFaults_pure _
  · -- central differences
    refine onlyFaults_tabulate fun i => ?_
    exact (onlyFaults_sample f x i h).bind fun _ =>
      (onlyFaults_sample f x i (-h)).bind fun _ =>
        (onlyFaults_ofExcept _).bind fun _ => onlyFaults_pure _
  · exact onlyFaults_evaluate _ slope x

end Derivative

namespace Solver

open Run

variable {X α J : Type} [Arithmetic α] [PointSpace X α J] {s : Solver X α J} {x fx : X} {i : Nat}

/-- A step cut to the trust radius, if there is one and the step is longer. -/
def clamped (s : Solver X α J) (delta : X) : X :=
  match s.config.maxRadius with
  | none => delta
  | some radius =>
    if Arithmetic.lt radius (norm delta) then scaled delta (radius / norm delta) else delta

/-- A clamp has a value in any case. -/
theorem outcome_clamp (s : Solver X α J) (delta : X) :
    (s.clamp delta).outcome = .ok (s.clamped delta) := by
  rw [clamp, clamped]
  rcases s.config.maxRadius with - | radius
  · rfl
  · dsimp only
    split
    next => rfl
    next => rfl

/-- The two conditions on a start. -/
theorem checkStart_eq_ok_iff :
    (s.checkStart x).outcome = .ok () ↔ s.config.validate = .ok () ∧ isFinite x = true := by
  rw [checkStart]
  rcases s.config.validate with fault | -
  · simp
  · rcases isFinite x with - | - <;> simp

omit [Arithmetic α] in
/-- What a test finds at a point, in the order in which it looks. -/
theorem outcome_test : (s.test i x).outcome =
    match s.function x with
    | .error f => .error (.fault f)
    | .ok fx =>
      if isFinite fx then .ok (fx, norm fx)
      else .error (.failure (.nonFiniteValue .function i (coordinates x))) := by
  rw [test, outcome_bind, outcome_evaluate]
  rcases s.function x with f | fx
  · rfl
  · show (checkResidual x fx (some i) i >>= _).outcome = _
    -- a value is there, and all that is left to check is that it is finite
    rw [outcome_bind, checkResidual]
    dsimp only
    by_cases hfin : isFinite fx = true
    · rw [if_pos hfin, if_pos hfin]
      rfl
    · rw [if_neg hfin, if_neg hfin]
      rfl

/-- A derivative is used only if it is finite. -/
theorem derivativeAt_eq_ok_iff {jacobian : J} :
    (s.derivativeAt i x fx).outcome = .ok jacobian
      ↔ (s.derivative.at s.function x fx).outcome = .ok jacobian
        ∧ isFiniteDerivative X jacobian = true := by
  rw [derivativeAt, bind_eq_ok_iff]
  constructor
  · rintro ⟨j, hj, h⟩
    split at h
    next hfin =>
      obtain rfl : j = jacobian := Except.ok.inj h
      exact ⟨hj, hfin⟩
    next => cases h
  · rintro ⟨hj, hfin⟩
    exact ⟨jacobian, hj, by rw [if_pos hfin]; rfl⟩

omit [Arithmetic α] in
/-- The two ways in which an equation is not solved are errors of the solver. -/
theorem solution_eq_ok_iff {jacobian : J} {delta : X} :
    (s.solution i x fx jacobian).outcome = .ok delta
      ↔ solveLinear jacobian fx s.config.singularityTolerance = .ok delta := by
  rw [solution]
  rcases solveLinear jacobian fx s.config.singularityTolerance with (_ | _) | d <;> simp

omit [Arithmetic α] in
/-- A point is left only for a finite one, by a finite step. -/
theorem move_eq_ok_iff {delta next : X} :
    (move i x delta : Run α X).outcome = .ok next
      ↔ difference x delta = .ok next ∧ isFinite delta = true ∧ isFinite next = true := by
  rw [move, bind_eq_ok_iff]
  constructor
  · rintro ⟨y, hy, h⟩
    split at h
    next hfin =>
      obtain ⟨-, -, h⟩ := bind_eq_ok_iff.mp h
      obtain rfl : y = next := Except.ok.inj h
      exact ⟨ofExcept_eq_ok_iff.mp hy, Bool.and_eq_true_iff.mp hfin⟩
    next => cases h
  · rintro ⟨hy, hfin⟩
    refine ⟨next, ofExcept_eq_ok_iff.mpr hy, ?_⟩
    rw [if_pos (Bool.and_eq_true_iff.mpr hfin)]
    rfl

/-- What a step from `x` with residual `fx` has to pass to lead to `next`. -/
theorem advance_eq_ok_iff {next : X} :
    (s.advance i x fx).outcome = .ok next ↔
      ∃ (jacobian : J) (delta : X),
        (s.derivative.at s.function x fx).outcome = .ok jacobian
        ∧ isFiniteDerivative X jacobian = true
        ∧ solveLinear jacobian fx s.config.singularityTolerance = .ok delta
        ∧ difference x (s.clamped delta) = .ok next
        ∧ isFinite (s.clamped delta) = true ∧ isFinite next = true := by
  rw [advance]
  simp only [bind_eq_ok_iff, derivativeAt_eq_ok_iff, solution_eq_ok_iff, outcome_clamp,
    move_eq_ok_iff, Except.ok.injEq, exists_eq_left', and_assoc, exists_and_left]

/-! ### The start of a search -/

/-- A start that is accepted leaves no trace in the journal. -/
theorem checkStart_eq_pure (hvalid : s.config.validate = .ok ()) (hx : isFinite x = true) :
    s.checkStart x = pure () := by
  rw [checkStart, hvalid]
  exact if_pos hx

/-- Without a budget the search is over before it begins. -/
theorem report_eq_exhausted (hstart : s.checkStart x = pure ())
    (hmax : s.config.maxIterations = 0) : s.report x = s.exhausted Arithmetic.nan x := by
  rw [report, hstart, pure_bind', hmax]

/-- With a budget of `n + 1` there are `n` points after the start. -/
theorem report_eq_search {n : Nat} (hstart : s.checkStart x = pure ())
    (hmax : s.config.maxIterations = n + 1) : s.report x = s.search n 0 x := by
  rw [report, hstart, pure_bind', hmax]

/-- In a later iteration a step ends as it does in the first. -/
theorem later_advance (s : Solver X α J) (k i : Nat) (x fx : X) :
    Later k (s.advance i x fx) (s.advance (i + k) x fx) := by
  -- one goal for each part of the step, in the order in which they run
  refine Later.bind ?_ fun jacobian => Later.bind ?_ fun delta => Later.bind ?_ fun delta => ?_
  · -- the derivative has an error only if it is not finite, and that error has a number
    refine (onlyFaults_at _ _ x fx).later.bind fun jacobian => ?_
    split
    next => exact later_pure jacobian
    next => exact later_fail rfl
  · -- the equation has an error with a number and one without
    rw [solution, solution]
    rcases solveLinear jacobian fx s.config.singularityTolerance with (_ | _) | d
    · exact later_fail rfl
    · exact later_fail rfl
    · exact later_pure d
  · -- the clamp does not know of the iteration
    rw [Later, outcome_clamp]
    rfl
  · -- the move has an error only if something overflows
    refine (onlyFaults_ofExcept _).later.bind fun next => ?_
    split
    next => rfl
    next => exact later_fail rfl

end Solver

end NewtonMethod
