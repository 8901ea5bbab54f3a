/-
NewtonMethod/Proofs/Iterates.lean

The Newton iterates as a sequence of points, and when a search succeeds.

`Updates s x y` says that the update of `x` is defined and leads to `y`:

    y = x - clamped δ    where    J(x)·δ = f(x)

with `f(x)`, `J(x)`, the clamped step and `y` finite and the linear equation
solved.  `Iterates s x k y` says that `k` updates lead from `x` to `y`.  There
is at most one such point (`Iterates.unique`), and it is finite if `x` is
(`Iterates.isFinite`).

Main result: `report_eq_ok_iff`.  A search reports a root exactly if the first
iterate whose residual norm passes the tolerance comes within the budget, and
then it reports that iterate, its number and its residual norm.  The induction
is on the budget that is left; a search from `x` either ends at `x` or rejects
`x` and goes on from its update (`search_succ_eq_ok_iff`).
-/
import NewtonMethod.Proofs.Exact
import NewtonMethod.Proofs.Outcome
import NewtonMethod.Space.Scalar

namespace NewtonMethod.Solver

open Run PointSpace

variable {X α J : Type} [Arithmetic α] [PointSpace X α J] {s : Solver X α J}

/-! ### The sequence of iterates -/

/-- The Newton update of `x` is defined, and it is `next`. -/
inductive Updates (s : Solver X α J) (x next : X) : Prop
  | intro (fx : X) (jacobian : J) (delta : X)
      (value : s.function x = .ok fx)
      (value_finite : isFinite fx = true)
      (slope : (s.derivative.at s.function x fx).outcome = .ok jacobian)
      (slope_finite : isFiniteDerivative X jacobian = true)
      (solved : solveLinear jacobian fx s.config.singularityTolerance = .ok delta)
      (moved : difference x (s.clamped delta) = .ok next)
      (step_finite : isFinite (s.clamped delta) = true)
      (next_finite : isFinite next = true)

/-- `Iterates s x k y`: the `k`-th Newton iterate from `x` is defined, and it is `y`. -/
inductive Iterates (s : Solver X α J) : X → Nat → X → Prop
  | start (x : X) : Iterates s x 0 x
  | next {x y z : X} {k : Nat} : Updates s x y → Iterates s y k z → Iterates s x (k + 1) z

/-- The residual at `x` is finite and has norm `r`. -/
def HasResidual (s : Solver X α J) (x : X) (r : α) : Prop :=
  ∃ fx, s.function x = .ok fx ∧ isFinite fx = true ∧ norm fx = r

/-- The residual at `x` has norm `r`, which is within the tolerance. -/
def Accepts (s : Solver X α J) (x : X) (r : α) : Prop :=
  s.HasResidual x r ∧ Arithmetic.le r s.config.tolerance = true

/-- The residual at `x` is finite, and its norm is not within the tolerance. -/
def Rejects (s : Solver X α J) (x : X) : Prop :=
  ∃ r, s.HasResidual x r ∧ Arithmetic.le r s.config.tolerance = false

/-- An update is a step from a point with a finite residual, whatever its number. -/
theorem updates_iff {x y : X} (i : Nat) :
    s.Updates x y ↔ ∃ fx, s.function x = .ok fx ∧ isFinite fx = true
      ∧ (s.advance i x fx).outcome = .ok y := by
  constructor
  · rintro ⟨fx, jacobian, delta, hf, hfin, hslope, hslopefin, hsolve, hmove, hstep, hnext⟩
    exact ⟨fx, hf, hfin, advance_eq_ok_iff.mpr
      ⟨jacobian, delta, hslope, hslopefin, hsolve, hmove, hstep, hnext⟩⟩
  · rintro ⟨fx, hf, hfin, hadvance⟩
    obtain ⟨jacobian, delta, hslope, hslopefin, hsolve, hmove, hstep, hnext⟩ :=
      advance_eq_ok_iff.mp hadvance
    exact ⟨fx, jacobian, delta, hf, hfin, hslope, hslopefin, hsolve, hmove, hstep, hnext⟩

/-- The number of the step does not matter for the point that it leads to. -/
theorem Updates.advance {x y fx : X} (h : s.Updates x y) (hf : s.function x = .ok fx) (i : Nat) :
    (s.advance i x fx).outcome = .ok y := by
  obtain ⟨fx', hf', -, hadvance⟩ := (updates_iff i).mp h
  obtain rfl : fx' = fx := Except.ok.inj (hf'.symm.trans hf)
  exact hadvance

theorem Updates.unique {x y z : X} (hy : s.Updates x y) (hz : s.Updates x z) : y = z := by
  obtain ⟨fx, hf, -, hy⟩ := (updates_iff 0).mp hy
  exact Except.ok.inj (hy.symm.trans (hz.advance hf 0))

theorem iterates_zero_iff {x y : X} : s.Iterates x 0 y ↔ y = x := by
  constructor
  · rintro ⟨⟩
    rfl
  · rintro rfl
    exact .start y

/-- The iterates after the first are those of the update. -/
theorem iterates_succ_iff {x y z : X} {k : Nat} (hxy : s.Updates x y) :
    s.Iterates x (k + 1) z ↔ s.Iterates y k z := by
  constructor
  · rintro (_ | ⟨hxy', hyz⟩)
    rwa [hxy.unique hxy']
  · exact .next hxy

/-- There is one `k`-th iterate at most. -/
theorem Iterates.unique {x y z : X} {k : Nat} (hy : s.Iterates x k y) (hz : s.Iterates x k z) :
    y = z := by
  induction hy with
  | start x => exact (iterates_zero_iff.mp hz).symm
  | next hxy _ ih => exact ih ((iterates_succ_iff hxy).mp hz)

/-- Every iterate is finite, since an update is only made if its result is. -/
theorem Iterates.isFinite {x y : X} {k : Nat} (h : s.Iterates x k y)
    (hx : PointSpace.isFinite x = true) : PointSpace.isFinite y = true := by
  induction h with
  | start x => exact hx
  | next hxy _ ih =>
    obtain ⟨_, _, _, _, _, _, _, _, _, _, hy⟩ := hxy
    exact ih hy

/-- An iterate of a solver is one of every solver that has the updates which lead to it. -/
theorem Iterates.of_updates {s' : Solver X α J} {x y : X} {k : Nat} (hy : s.Iterates x k y)
    (h : ∀ j < k, ∀ z z', s.Iterates x j z → s.Updates z z' → s'.Updates z z') :
    s'.Iterates x k y := by
  induction hy with
  | start x => exact .start x
  | @next x y z k hxy hyz ih =>
    -- the first update is one of those, and the others are as many steps from `y`
    refine .next (h 0 k.succ_pos x y (.start x) hxy) (ih ?_)
    intro j hj w w' hw
    exact h (j + 1) (Nat.succ_lt_succ hj) w w' (.next hxy hw)

/-- The iterates of a solver are those of every solver that has its updates. -/
theorem Iterates.imp {s' : Solver X α J} (h : ∀ x y, s.Updates x y → s'.Updates x y) {x y : X}
    {k : Nat} (hy : s.Iterates x k y) : s'.Iterates x k y :=
  hy.of_updates fun _ _ z z' _ => h z z'

/-- Each iterate before the last one has an update. -/
theorem Iterates.exists_updates {x y z : X} {i k : Nat} (hz : s.Iterates x k z) (hi : i < k)
    (hy : s.Iterates x i y) : ∃ y', s.Updates y y' := by
  induction hy generalizing k with
  | start x =>
    cases hz with
    | start => exact absurd hi (Nat.lt_irrefl 0)
    | next hxy _ => exact ⟨_, hxy⟩
  | next hxy _ ih =>
    cases hz with
    | start => exact absurd hi (Nat.not_lt_zero _)
    | next hxy' hz =>
      rw [hxy'.unique hxy] at hz
      exact ih hz (Nat.lt_of_succ_lt_succ hi)

omit [Arithmetic α] in
theorem HasResidual.unique {x : X} {r r' : α} (h : s.HasResidual x r) (h' : s.HasResidual x r') :
    r = r' := by
  obtain ⟨fx, hf, -, rfl⟩ := h
  obtain ⟨fx', hf', -, rfl⟩ := h'
  rw [Except.ok.inj (hf.symm.trans hf')]

theorem Rejects.not_accepts {x : X} {r : α} (h : s.Rejects x) : ¬s.Accepts x r := by
  rintro ⟨hr, hle⟩
  obtain ⟨r', hr', hreject⟩ := h
  rw [hr.unique hr', hreject] at hle
  cases hle

/-! ### One turn of a search -/

/-- A turn tests its point and ends the search if the point is accepted.  If not, the search goes
on as `next` says. -/
def turn (s : Solver X α J) (i : Nat) (x : X) (next : X → α → Run α (Report X α)) :
    Run α (Report X α) := do
  let (fx, r) ← s.test i x
  if Arithmetic.le r s.config.tolerance then return ⟨x, i, r⟩ else next fx r

theorem search_zero (s : Solver X α J) (i : Nat) (x : X) :
    s.search 0 i x = s.turn i x fun _ r => s.exhausted r x := rfl

theorem search_succ (s : Solver X α J) (n i : Nat) (x : X) :
    s.search (n + 1) i x
      = s.turn i x fun fx _ => s.advance i x fx >>= s.search n (i + 1) := rfl

theorem outcome_turn (s : Solver X α J) (i : Nat) (x : X) (next : X → α → Run α (Report X α)) :
    (s.turn i x next).outcome =
      match s.function x with
      | .error f => .error (.fault f)
      | .ok fx =>
        if isFinite fx then
          if Arithmetic.le (norm fx) s.config.tolerance then .ok ⟨x, i, norm fx⟩
          else (next fx (norm fx)).outcome
        else .error (.failure (.nonFiniteValue .function i (coordinates x))) := by
  rw [turn, outcome_bind, outcome_test]
  rcases s.function x with f | fx
  · rfl
  · dsimp only
    by_cases hfx : isFinite fx = true
    · rw [if_pos hfx, if_pos hfx]
      dsimp only [Except.bind]
      split
      next => rfl
      next => rfl
    · rw [if_neg hfx, if_neg hfx]
      rfl

/-- A turn succeeds by accepting its point, or by rejecting it and succeeding later. -/
theorem turn_eq_ok_iff {x : X} {i : Nat} {next : X → α → Run α (Report X α)}
    {found : Report X α} :
    (s.turn i x next).outcome = .ok found
      ↔ (s.Accepts x found.residualNorm ∧ found.root = x ∧ found.iterations = i)
        ∨ ∃ fx, s.function x = .ok fx ∧ isFinite fx = true
            ∧ Arithmetic.le (norm fx) s.config.tolerance = false
            ∧ (next fx (norm fx)).outcome = .ok found := by
  rw [outcome_turn]
  constructor
  · intro h
    split at h
    next => cases h
    next fx hf =>
      split at h
      next hfin =>
        split at h
        next hle =>
          obtain rfl : _ = found := Except.ok.inj h
          exact .inl ⟨⟨⟨fx, hf, hfin, rfl⟩, hle⟩, rfl, rfl⟩
        next hle => exact .inr ⟨fx, hf, hfin, Bool.eq_false_iff.mpr hle, h⟩
      next => cases h
  · rintro (⟨⟨⟨fx, hf, hfin, hr⟩, hle⟩, rfl, rfl⟩ | ⟨fx, hf, hfin, hle, h⟩)
    · rw [← hr] at hle
      rw [hf]
      dsimp only
      rw [if_pos hfin, if_pos hle, hr]
    · rw [hf]
      dsimp only
      rw [if_pos hfin, if_neg (Bool.eq_false_iff.mp hle)]
      exact h

/-- The last point within the budget ends the search, with success if it is accepted. -/
theorem search_zero_eq_ok_iff {x : X} {i : Nat} {found : Report X α} :
    (s.search 0 i x).outcome = .ok found
      ↔ s.Accepts x found.residualNorm ∧ found.root = x ∧ found.iterations = i := by
  rw [search_zero, turn_eq_ok_iff, or_iff_left]
  rintro ⟨_, -, -, -, h⟩
  cases h

/-- A point with a point after it ends the search if it is accepted, and otherwise the search goes
on from its update. -/
theorem search_succ_eq_ok_iff {x : X} {n i : Nat} {found : Report X α} :
    (s.search (n + 1) i x).outcome = .ok found
      ↔ (s.Accepts x found.residualNorm ∧ found.root = x ∧ found.iterations = i)
        ∨ (s.Rejects x ∧ ∃ y, s.Updates x y ∧ (s.search n (i + 1) y).outcome = .ok found) := by
  rw [search_succ, turn_eq_ok_iff]
  refine or_congr_right ⟨?_, ?_⟩
  · rintro ⟨fx, hf, hfin, hle, h⟩
    obtain ⟨y, hadvance, h⟩ := bind_eq_ok_iff.mp h
    have hupdate : s.Updates x y := (updates_iff i).mpr ⟨fx, hf, hfin, hadvance⟩
    exact ⟨⟨norm fx, ⟨fx, hf, hfin, rfl⟩, hle⟩, y, hupdate, h⟩
  · rintro ⟨⟨r, ⟨fx, hf, hfin, rfl⟩, hle⟩, y, hupdate, h⟩
    exact ⟨fx, hf, hfin, hle, bind_eq_ok_iff.mpr ⟨y, hupdate.advance hf i, h⟩⟩

/-! ### Success -/

/-- Every iterate before the `k`-th one is defined and rejected. -/
def RejectsBefore (s : Solver X α J) (x : X) (k : Nat) : Prop :=
  ∀ j < k, ∃ y, s.Iterates x j y ∧ s.Rejects y

theorem rejectsBefore_zero (s : Solver X α J) (x : X) : s.RejectsBefore x 0 :=
  fun j hj => absurd hj j.not_lt_zero

/-- One iterate more at the front. -/
theorem rejectsBefore_succ_iff {x y : X} {k : Nat} (hxy : s.Updates x y) :
    s.RejectsBefore x (k + 1) ↔ s.Rejects x ∧ s.RejectsBefore y k := by
  constructor
  · intro h
    -- the point itself is the iterate of number zero
    obtain ⟨x', hx', hreject⟩ := h 0 k.succ_pos
    obtain rfl := iterates_zero_iff.mp hx'
    refine ⟨hreject, fun j hj => ?_⟩
    obtain ⟨z, hz, hreject⟩ := h (j + 1) (Nat.succ_lt_succ hj)
    exact ⟨z, (iterates_succ_iff hxy).mp hz, hreject⟩
  · rintro ⟨hreject, h⟩ j hj
    rcases j with - | j
    · exact ⟨x, .start x, hreject⟩
    · obtain ⟨z, hz, hreject⟩ := h j (Nat.lt_of_succ_lt_succ hj)
      exact ⟨z, .next hxy hz, hreject⟩

/-- One iterate more at the end. -/
theorem rejectsBefore_succ_iff_last {x : X} {k : Nat} :
    s.RejectsBefore x (k + 1)
      ↔ s.RejectsBefore x k ∧ ∃ y, s.Iterates x k y ∧ s.Rejects y :=
  Nat.forall_lt_succ_right

/-- A search with `n` points after `x` finds the first iterate that is accepted. -/
theorem search_eq_ok_iff {x : X} {n i : Nat} {found : Report X α} :
    (s.search n i x).outcome = .ok found
      ↔ ∃ k ≤ n, found.iterations = i + k ∧ s.Iterates x k found.root
        ∧ s.Accepts found.root found.residualNorm ∧ s.RejectsBefore x k := by
  induction n generalizing i x with
  | zero =>
    rw [search_zero_eq_ok_iff]
    constructor
    · rintro ⟨haccept, rfl, hi⟩
      exact ⟨0, Nat.le_refl _, hi, .start _, haccept, rejectsBefore_zero s _⟩
    · rintro ⟨k, hk, hi, hroot, haccept, -⟩
      obtain rfl : k = 0 := Nat.le_zero.mp hk
      have hroot := iterates_zero_iff.mp hroot
      exact ⟨hroot ▸ haccept, hroot, hi⟩
  | succ n ih =>
    rw [search_succ_eq_ok_iff]
    constructor
    · rintro (⟨haccept, rfl, hi⟩ | ⟨hreject, y, hxy, h⟩)
      · exact ⟨0, Nat.zero_le _, hi, .start _, haccept, rejectsBefore_zero s _⟩
      · -- the iterates from `y` are those from `x`, counted one less
        obtain ⟨k, hk, hi, hroot, haccept, hbefore⟩ := ih.mp h
        exact ⟨k + 1, Nat.succ_le_succ hk, by omega, .next hxy hroot, haccept,
          (rejectsBefore_succ_iff hxy).mpr ⟨hreject, hbefore⟩⟩
    · rintro ⟨k, hk, hi, hroot, haccept, hbefore⟩
      rcases k with - | k
      · have hroot := iterates_zero_iff.mp hroot
        exact .inl ⟨hroot ▸ haccept, hroot, hi⟩
      · obtain _ | ⟨hxy, hyz⟩ := hroot
        obtain ⟨hreject, hbefore⟩ := (rejectsBefore_succ_iff hxy).mp hbefore
        exact .inr ⟨hreject, _, hxy, ih.mpr ⟨k, by omega, by omega, hyz, haccept, hbefore⟩⟩

theorem search_of_accepts {x : X} {r : α} (h : s.Accepts x r) (n i : Nat) :
    (s.search n i x).outcome = .ok ⟨x, i, r⟩ :=
  search_eq_ok_iff.mpr
    ⟨0, Nat.zero_le _, rfl, .start x, h, rejectsBefore_zero s x⟩

/-- A search for which some iterate within the budget would be accepted succeeds there or
earlier. -/
theorem exists_search_eq_ok {x y : X} {r : α} {k n : Nat} (hy : s.Iterates x k y)
    (haccept : s.Accepts y r) (hk : k ≤ n) (i : Nat) :
    ∃ found, (s.search n i x).outcome = .ok found ∧ found.iterations ≤ i + k := by
  induction hy generalizing n i with
  | start x => exact ⟨_, search_of_accepts haccept n i, Nat.le_refl _⟩
  | @next x y z k hxy hyz ih =>
    obtain ⟨n, rfl⟩ := Nat.exists_eq_succ_of_ne_zero (Nat.ne_zero_of_lt hk)
    obtain ⟨fx, hf, hfin, -⟩ := (updates_iff 0).mp hxy
    have hresidual : s.HasResidual x (norm fx) := ⟨fx, hf, hfin, rfl⟩
    -- the point may be accepted earlier, which ends the search sooner
    rcases hle : Arithmetic.le (norm fx) s.config.tolerance with - | -
    · obtain ⟨found, hfound, hi⟩ := ih haccept (Nat.le_of_succ_le_succ hk) (i + 1)
      refine ⟨found, search_succ_eq_ok_iff.mpr (.inr ⟨⟨_, hresidual, hle⟩, y, hxy, hfound⟩), ?_⟩
      omega
    · exact ⟨_, search_of_accepts ⟨hresidual, hle⟩ _ i, Nat.le_add_right i _⟩

/-- **Success is exact and earliest.**  A search reports a root exactly if the configuration is
acceptable, the start is finite, and the root is the first iterate that is accepted, its number
being less than the budget.  The report is that iterate, its number and its residual norm. -/
theorem report_eq_ok_iff (s : Solver X α J) (x : X) (found : Report X α) :
    (s.report x).outcome = .ok found
      ↔ s.config.validate = .ok () ∧ isFinite x = true
        ∧ found.iterations < s.config.maxIterations
        ∧ s.Iterates x found.iterations found.root
        ∧ s.Accepts found.root found.residualNorm
        ∧ ∀ i < found.iterations, ∃ y, s.Iterates x i y ∧ s.Rejects y := by
  rw [report, bind_eq_ok_iff]
  constructor
  · rintro ⟨_, hstart, h⟩
    obtain ⟨hvalid, hfin⟩ := checkStart_eq_ok_iff.mp hstart
    -- without a budget nothing is found
    rcases hmax : s.config.maxIterations with - | n
    · rw [hmax] at h
      cases h
    · rw [hmax] at h
      obtain ⟨k, hk, hi, hroot, haccept, hbefore⟩ := search_eq_ok_iff.mp h
      obtain rfl : found.iterations = k := by omega
      exact ⟨hvalid, hfin, Nat.lt_succ_of_le hk, hroot, haccept, hbefore⟩
  · rintro ⟨hvalid, hfin, hk, hroot, haccept, hbefore⟩
    refine ⟨(), checkStart_eq_ok_iff.mpr ⟨hvalid, hfin⟩, ?_⟩
    rcases hmax : s.config.maxIterations with - | n
    · omega
    · exact search_eq_ok_iff.mpr ⟨_, by omega, by omega, hroot, haccept, hbefore⟩

/-- The search for a square root of two, over the rational numbers. -/
def rootOfTwo : Solver ℚ ℚ ℚ where
  function x := .ok (x * x - 2)
  derivative := .function fun x => .ok (2 * x)
  config := ⟨1 / 10, 5, none, 1, .forward, 0⟩

-- the iterates from two are 2, 3/2 and 17/12
example : (rootOfTwo.report 2).outcome = .ok ⟨17 / 12, 2, 1 / 144⟩ := by decide +kernel

end NewtonMethod.Solver
