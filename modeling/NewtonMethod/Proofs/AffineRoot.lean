/-
NewtonMethod/Proofs/AffineRoot.lean

Newton's method for `A·x - b`, in exact arithmetic.

The table `A` may be any whose pivots exceed the singularity tolerance, the
start any point, and the derivative may come from forward or central
differences over any distance or be `A` itself.

* Without a trust radius the search is over after one step at most
  (`affine_solvesInOneStep`): it ends at the start if the residual there is
  within the tolerance, and otherwise at the solution, with residual zero.
* With a trust radius it is a straight walk (`affine_walksStraight`): every step
  but the last has the length of the radius and they all lie on the segment
  from the start to the solution, so the budget it takes is known beforehand.

Both hold in all three spaces, the second where square roots are exact.  The
walk is an induction on the number of steps in which the start varies: after
the first step the rest is a walk from the point that it led to, along a part of
the same segment (`SolvesAffine.exists_iterates`).
-/
import Mathlib.Analysis.Convex.Basic
import NewtonMethod.Proofs.AffineUpdate

namespace NewtonMethod

open Matrix PointSpace Run

variable {X K J : Type} [Field K] [LinearOrder K] [IsStrictOrderedRing K] [ElementaryFunctions K]
  [PointSpace X K J] {n : ℕ}

namespace Coordinates

variable {c : Coordinates X K J n} {s : Solver X K J} {A : Table K n n} {b w : Fin n → K}

/-! ### Without a trust radius -/

/-- From every start the search ends there if the residual of `A·x - b` is within the tolerance, and
otherwise after one step at a solution of the system, where the residual is zero. -/
def SolvesInOneStep (c : Coordinates X K J n) (s : Solver X K J) (A : Table K n n)
    (b : Fin n → K) : Prop :=
  ∀ v, let r := norm (c.point (A.toMatrix *ᵥ v - b))
    if r ≤ s.config.tolerance then (s.report (c.point v)).outcome = .ok ⟨c.point v, 0, r⟩
    else ∃ w, A.toMatrix *ᵥ w = b ∧ (s.report (c.point v)).outcome = .ok ⟨c.point w, 1, 0⟩

/-- The start is accepted, or its update is the solution and that is accepted. -/
theorem SolvesAffine.solvesInOneStep (h : c.SolvesAffine s A b)
    (hradius : s.config.maxRadius = none) (hmax : 2 ≤ s.config.maxIterations) :
    c.SolvesInOneStep s A b := by
  intro v r
  obtain ⟨m, hm⟩ := Nat.exists_eq_add_of_le' hmax
  rw [h.report_eq_search v hm]
  split
  next hle => exact Solver.search_of_accepts ⟨h.hasResidual v, Exact.le_iff.mpr hle⟩ _ _
  next hle =>
    obtain ⟨w, hw⟩ := h.exists_solution
    -- nothing shortens the step, so the update is the solution
    have hupdate : s.Updates (c.point v) (c.point w) := by
      have := h.updates hw.solves v
      rwa [Config.shortening, hradius, one_smul, sub_sub_cancel] at this
    have hreject : s.Rejects (c.point v) :=
      ⟨r, h.hasResidual v, Bool.eq_false_iff.mpr (mt Exact.le_iff.mp hle)⟩
    refine ⟨w, hw.solves, Solver.search_succ_eq_ok_iff.mpr (.inr ⟨hreject, _, hupdate, ?_⟩)⟩
    exact Solver.search_of_accepts (h.accepts hw.solves) _ _

/-! ### With a trust radius -/

section TrustRadius

variable [ExactRoots K] {r : K}

/-- Every iterate is on the way to the solution, nearer to it by the radius than the one before
until it is reached. -/
theorem SolvesAffine.exists_iterates (h : c.SolvesAffine s A b) (hw : A.toMatrix *ᵥ w = b)
    (hradius : s.config.maxRadius = some r) (k : ℕ) (v : Fin n → K) :
    ∃ y, s.Iterates (c.point v) k (c.point y)
      ∧ norm (c.point (y - w)) = max 0 (norm (c.point (v - w)) - k * r)
      ∧ y ∈ segment K v w := by
  have hr : 0 < r := (Exact.validate_eq_ok_iff.mp h.valid).2.2.1 r hradius
  induction k generalizing v with
  | zero =>
    refine ⟨v, .start _, ?_, left_mem_segment K v w⟩
    rw [Nat.cast_zero, zero_mul, sub_zero, max_eq_right (c.norm_point_spec _).1]
  | succ k ih =>
    let q := s.config.shortening (norm (c.point (v - w)))
    obtain ⟨hq0, hq1⟩ := Config.shortening_mem_Icc hradius hr (norm (c.point (v - w)))
    obtain ⟨y, hy, hdistance, hmem⟩ := ih (v - q • (v - w))
    refine ⟨y, .next (h.updates hw v) hy, ?_, ?_⟩
    · -- the first step leaves `1 - q` of the way
      have hfirst : norm (c.point (v - q • (v - w) - w))
          = max 0 (norm (c.point (v - w)) - r) := by
        have hrest : v - q • (v - w) - w = (1 - q) • (v - w) := by
          rw [sub_smul, one_smul]
          abel
        rw [hrest, c.norm_point_smul (sub_nonneg.mpr hq1), Config.one_sub_shortening_mul hradius hr]
      have hk : -((k : K) * r) ≤ 0 := neg_nonpos.mpr (by positivity)
      rw [hdistance, hfirst, ← max_sub_sub_right, zero_sub, ← max_assoc, max_eq_left hk,
        Nat.cast_succ, add_one_mul, sub_sub, add_comm r]
    · -- and leads to a point of the segment, the rest of which is the segment from there
      have hstep : v - q • (v - w) ∈ segment K v w := by
        rw [segment_eq_image']
        refine ⟨q, ⟨hq0, hq1⟩, ?_⟩
        show v + q • (w - v) = v - q • (v - w)
        rw [← neg_sub v w, smul_neg, ← sub_eq_add_neg]
      exact (convex_segment v w).segment_subset hstep (right_mem_segment K v w) hmem

variable [FloorSemiring K]

/-- From every start the iterates go straight to the only solution, and the distance that is left
falls by `r` with each, until nothing is left.  If the budget is more than the number of steps of
length `r` that the distance takes, the search succeeds, and in no more steps. -/
def WalksStraight (c : Coordinates X K J n) (s : Solver X K J) (A : Table K n n) (b : Fin n → K)
    (r : K) : Prop :=
  ∃ w, IsOnlySolution A.toMatrix b w ∧ ∀ v, let distance := norm (c.point (v - w))
    (∀ k : ℕ, ∃ y, s.Iterates (c.point v) k (c.point y)
      ∧ norm (c.point (y - w)) = max 0 (distance - k * r) ∧ y ∈ segment K v w) ∧
    (⌈distance / r⌉₊ < s.config.maxIterations → ∃ found,
      (s.report (c.point v)).outcome = .ok found ∧ found.iterations ≤ ⌈distance / r⌉₊)

/-- The walk is as long as it has to be, and the search stops at its end or before. -/
theorem SolvesAffine.walksStraight (h : c.SolvesAffine s A b)
    (hradius : s.config.maxRadius = some r) : c.WalksStraight s A b r := by
  obtain ⟨w, hw⟩ := h.exists_solution
  refine ⟨w, hw, fun v => ⟨fun k => h.exists_iterates hw.solves hradius k v, fun hmax => ?_⟩⟩
  have hr : 0 < r := (Exact.validate_eq_ok_iff.mp h.valid).2.2.1 r hradius
  obtain ⟨m, hm⟩ := Nat.exists_eq_add_one_of_ne_zero (Nat.ne_zero_of_lt hmax)
  have hbudget : ⌈norm (c.point (v - w)) / r⌉₊ ≤ m := by omega
  -- that many steps are enough to reach the solution, where the search ends if not before
  obtain ⟨y, hy, hdistance, -⟩ := h.exists_iterates hw.solves hradius
    ⌈norm (c.point (v - w)) / r⌉₊ v
  have hceil : norm (c.point (v - w)) ≤ ⌈norm (c.point (v - w)) / r⌉₊ * r :=
    (div_le_iff₀ hr).mp (Nat.le_ceil _)
  rw [max_eq_left (sub_nonpos.mpr hceil), c.norm_point_eq_zero_iff, sub_eq_zero] at hdistance
  have haccept : s.Accepts (c.point y) 0 := hdistance ▸ h.accepts hw.solves
  obtain ⟨found, hfound, hsteps⟩ := Solver.exists_search_eq_ok hy haccept hbudget 0
  rw [Nat.zero_add] at hsteps
  exact ⟨found, by rw [h.report_eq_search v hm, hfound], hsteps⟩

end TrustRadius

end Coordinates

/-! ### Main results -/

open Coordinates

/-- **A linear system is solved in one step.**  Without a trust radius and with a budget for two
residuals, the search for the root of `A·x - b` accepts its start or solves the system in one step,
whichever way the derivative is found. -/
theorem affine_solvesInOneStep (config : Config K) (hvalid : config.validate = .ok ())
    (hradius : config.maxRadius = none) (hmax : 2 ≤ config.maxIterations) :
    (∀ (A : Table K n n) (b : Vector K n),
      (∀ i, config.singularityTolerance < |(Factors.ofTable A).table.entry i i|) →
      (∀ d, Derivative.ForSlope ⟨n, n, A⟩ d →
        column.SolvesInOneStep ⟨Affine.evaluate ⟨⟨n, n, A⟩, b.toArray⟩, d, config⟩ A b.get) ∧
      (∀ d, Derivative.ForSlope A d →
        fixed.SolvesInOneStep ⟨fun x => difference (A.times x) b, d, config⟩ A b.get)) ∧
    (∀ a b : K, config.singularityTolerance < |a| → ∀ d, Derivative.ForSlope a d →
      number.SolvesInOneStep ⟨fun x => .ok (a * x - b), d, config⟩ #v[#v[a]] fun _ => b) := by
  refine ⟨fun A b hA => ⟨fun d hd => ?_, fun d hd => ?_⟩, fun a b ha d hd => ?_⟩
  · exact (column_solvesAffine hvalid hA hd).solvesInOneStep hradius hmax
  · exact (fixed_solvesAffine hvalid hA hd).solvesInOneStep hradius hmax
  · exact (number_solvesAffine hvalid ha hd).solvesInOneStep hradius hmax

/-- A system that exchanges rows, by central quotients and with its slope given, and a single
equation by forward quotients. -/
theorem affine_solvesInOneStep_exchanging :
    let config : Config ℚ := ⟨1 / 10, 2, none, 1 / 2, .central, 1 / 2⟩
    let b : Vector ℚ 3 := #v[8, 4, 4]
    let central : Derivative (Array ℚ) ℚ (Jacobian ℚ) := .differences (.ofConfig config)
    let forward : Derivative ℚ ℚ ℚ := .differences ⟨3, .forward⟩
    let constant : Derivative (Vector ℚ 3) ℚ (Table ℚ 3 3) := .function fun _ => .ok exchanging
    config.validate = .ok () ∧ config.maxRadius = none ∧ 2 ≤ config.maxIterations
      ∧ (∀ i, config.singularityTolerance < |(Factors.ofTable exchanging).table.entry i i|)
      ∧ central.ForSlope ⟨3, 3, exchanging⟩
      ∧ column.SolvesInOneStep ⟨Affine.evaluate ⟨⟨3, 3, exchanging⟩, b.toArray⟩, central, config⟩
          exchanging b.get
      ∧ constant.ForSlope exchanging
      ∧ fixed.SolvesInOneStep ⟨fun x => difference (exchanging.times x) b, constant, config⟩
          exchanging b.get
      ∧ config.singularityTolerance < |(4 : ℚ)| ∧ forward.ForSlope 4
      ∧ number.SolvesInOneStep ⟨fun x => .ok (4 * x - 6), forward, config⟩ #v[#v[4]]
          fun _ => 6 := by
  intro config b central forward constant
  have hvalid : config.validate = .ok () := by decide +kernel
  have hmax : 2 ≤ config.maxIterations := by decide
  have hA : ∀ i, config.singularityTolerance < |(Factors.ofTable exchanging).table.entry i i| := by
    decide +kernel
  have hcentral : central.ForSlope ⟨3, 3, exchanging⟩ := .differences (by decide +kernel)
  have hconstant : constant.ForSlope exchanging := .function fun _ => rfl
  have hfour : config.singularityTolerance < |(4 : ℚ)| := by decide +kernel
  have hforward : forward.ForSlope 4 := .differences (by decide +kernel)
  obtain ⟨hlists, hnumbers⟩ := affine_solvesInOneStep config hvalid rfl hmax
  obtain ⟨hcolumn, hfixed⟩ := hlists exchanging b hA
  exact ⟨hvalid, rfl, hmax, hA, hcentral, hcolumn _ hcentral, hconstant, hfixed _ hconstant,
    hfour, hforward, hnumbers 4 6 hfour _ hforward⟩

/-- **A bounded search for the root of `A·x - b` is a straight walk.**  With a trust radius `r` each
iterate is on the segment from the start to the solution and nearer to the solution by `r`, and the
search succeeds if its budget exceeds the number of steps that this takes. -/
theorem affine_walksStraight [ExactRoots K] [FloorSemiring K] (config : Config K)
    (hvalid : config.validate = .ok ()) {r : K} (hradius : config.maxRadius = some r) :
    (∀ (A : Table K n n) (b : Vector K n),
      (∀ i, config.singularityTolerance < |(Factors.ofTable A).table.entry i i|) →
      (∀ d, Derivative.ForSlope ⟨n, n, A⟩ d →
        column.WalksStraight ⟨Affine.evaluate ⟨⟨n, n, A⟩, b.toArray⟩, d, config⟩ A b.get r) ∧
      (∀ d, Derivative.ForSlope A d →
        fixed.WalksStraight ⟨fun x => difference (A.times x) b, d, config⟩ A b.get r)) ∧
    (∀ a b : K, config.singularityTolerance < |a| → ∀ d, Derivative.ForSlope a d →
      number.WalksStraight ⟨fun x => .ok (a * x - b), d, config⟩ #v[#v[a]] (fun _ => b) r) := by
  refine ⟨fun A b hA => ⟨fun d hd => ?_, fun d hd => ?_⟩, fun a b ha d hd => ?_⟩
  · exact (column_solvesAffine hvalid hA hd).walksStraight hradius
  · exact (fixed_solvesAffine hvalid hA hd).walksStraight hradius
  · exact (number_solvesAffine hvalid ha hd).walksStraight hradius

/-- A table that exchanges two coordinates. -/
def transposing : Table ℝ 2 2 := #v[#v[0, 1], #v[1, 0]]

theorem transposing_regular (i : Fin 2) :
    0 < |(Factors.ofTable transposing).table.entry i i| := by
  refine abs_pos.mpr fun hzero => ?_
  -- a pivot that is zero would make the determinant zero, and that is minus one
  have hdet := (det_eq_zero_iff transposing).mpr ⟨i, hzero⟩
  rw [Matrix.det_fin_two] at hdet
  simp [transposing, Table.entry] at hdet

theorem transposing_mulVec : transposing.toMatrix *ᵥ ![3, 4] = (#v[4, 3] : Vector ℝ 2).get := by
  funext i
  fin_cases i <;> simp [Matrix.mulVec, dotProduct, transposing, Table.entry, Vector.get]

theorem norm_threeFour : norm (column.point (0 - ![3, 4] : Fin 2 → ℝ)) = 5 := by
  obtain ⟨hnonneg, hsquare⟩ := column.norm_point_spec (0 - ![3, 4] : Fin 2 → ℝ)
  refine (sq_eq_sq₀ hnonneg (by norm_num)).mp (hsquare.trans ?_)
  rw [Fin.sum_univ_two]
  norm_num

/-- A walk of length five in steps of length two. -/
theorem affine_walksStraight_transposing :
    let config : Config ℝ := ⟨1 / 10, 4, some 2, 1, .forward, 0⟩
    let b : Vector ℝ 2 := #v[4, 3]
    let forward : Derivative (Array ℝ) ℝ (Jacobian ℝ) := .differences (.ofConfig config)
    let s : Solver (Array ℝ) ℝ (Jacobian ℝ) :=
      ⟨Affine.evaluate ⟨⟨2, 2, transposing⟩, b.toArray⟩, forward, config⟩
    config.validate = .ok () ∧ config.maxRadius = some 2
      ∧ (∀ i, config.singularityTolerance < |(Factors.ofTable transposing).table.entry i i|)
      ∧ forward.ForSlope ⟨2, 2, transposing⟩
      ∧ (∃ y, s.Iterates #[0, 0] 2 (column.point y) ∧ norm (column.point (y - ![3, 4])) = 1
          ∧ y ∈ segment ℝ 0 ![3, 4])
      ∧ ∃ found, (s.report #[0, 0]).outcome = .ok found ∧ found.iterations ≤ 3 := by
  intro config b forward s
  have hvalid : config.validate = .ok () := by
    refine Exact.validate_eq_ok_iff.mpr ⟨by norm_num [config], one_pos, ?_, le_rfl⟩
    rintro r ⟨⟩
    exact two_pos
  have hA : ∀ i, config.singularityTolerance
      < |(Factors.ofTable transposing).table.entry i i| := transposing_regular
  have hforward : forward.ForSlope ⟨2, 2, transposing⟩ := .differences one_pos
  obtain ⟨w, hw, hwalk⟩ :=
    ((affine_walksStraight config hvalid rfl).1 transposing b hA).1 forward hforward
  -- the point that the walk leads to is the only solution
  obtain rfl : ![3, 4] = w := hw.unique _ transposing_mulVec
  obtain ⟨hiterates, hreport⟩ := hwalk 0
  rw [norm_threeFour] at hiterates hreport
  refine ⟨hvalid, rfl, hA, hforward, ?_, ?_⟩
  · obtain ⟨y, hy, hleft, hmem⟩ := hiterates 2
    refine ⟨y, hy, ?_, hmem⟩
    rw [hleft]
    norm_num
  · have hceil : ⌈(5 : ℝ) / 2⌉₊ = 3 := by norm_num [Nat.ceil_eq_iff]
    rw [hceil] at hreport
    exact hreport (by decide)

end NewtonMethod
