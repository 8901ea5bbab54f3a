/-
NewtonMethod/Proofs/StepLength.lean

How far the steps of a search with a trust radius go.

In an arithmetic with exact square roots a step from `v` goes along the solution `d`
of its linear equation, and as far as the radius `r` allows:

    v - u = q·d    where    ‖v - u‖ = min ‖d‖ r

and `q` is one exactly if `d` is not longer than `r` (`Coordinates.MovesAlong`).  The
factor is known from the clamp (`Config.shortening`), so its length is what there is
to show: norms are homogeneous.  By the triangle inequality `k` steps lead no further
than `k·r`, by induction on their number.

All this is said of vectors, so the points of a step have to be vectors of one
length.  Only the start of a step is given.  That the other points of a step that
succeeds are of the same length as the start is what a space adds to its laws
(`Coordinates.IsClosed`); of the three only the lists of any length have something
to show for it.  Main result: `steps_withinRadius`.
-/
import NewtonMethod.Proofs.AffineRoot
import NewtonMethod.Proofs.Shapes
import NewtonMethod.Proofs.StepLoop

namespace NewtonMethod

open Matrix PointSpace Run

variable {X K J : Type} [Field K] [LinearOrder K] [ElementaryFunctions K] [PointSpace X K J] {n : ℕ}

namespace Coordinates

/-! ### Points of one length -/

/-- Whatever is subtracted from a point with `n` coordinates or solves a linear equation with `n`
coordinates has `n` coordinates, and so has the equation. -/
structure IsClosed (c : Coordinates X K J n) : Prop where
  of_difference {v : Fin n → K} {y z : X} : difference (c.point v) y = .ok z → ∃ w, y = c.point w
  of_scaled {x : X} {a : K} {v : Fin n → K} : scaled x a = c.point v → ∃ w, x = c.point w
  of_solveLinear {j : J} {b : X} {d : Fin n → K} {tolerance : K} : 0 ≤ tolerance →
    solveLinear j b tolerance = .ok (c.point d) →
    ∃ (A : Table K n n) (w : Fin n → K),
      j = c.slope A ∧ b = c.point w ∧ IsOnlySolution A.toMatrix w d

variable [IsStrictOrderedRing K]

theorem fixed_isClosed : (fixed : Coordinates (Vector K n) K (Table K n n) n).IsClosed where
  of_difference {_ y _} _ := ⟨y.get, (ofFn_get y).symm⟩
  of_scaled {x _ _} _ := ⟨x.get, (ofFn_get x).symm⟩
  of_solveLinear {j b d _} _ h := by
    have honly := isOnlySolution_of_solveLinear h
    have hget : (Vector.ofFn d).get = d := funext (get_ofFn d)
    exact ⟨j, b.get, rfl, (ofFn_get b).symm, hget ▸ honly⟩

omit [LinearOrder K] [IsStrictOrderedRing K] [ElementaryFunctions K] [Field K] in
theorem exists_eq_toArray {y : Array K} (h : y.size = n) :
    ∃ w : Fin n → K, y = (Vector.ofFn w).toArray :=
  ⟨Vector.get ⟨y, h⟩, congrArg Vector.toArray (ofFn_get ⟨y, h⟩).symm⟩

/-- Lists can be subtracted only if their lengths agree. -/
theorem column_isClosed : (column : Coordinates (Array K) K (Jacobian K) n).IsClosed where
  of_difference {v _ _} h := by
    obtain ⟨hsize, -⟩ := Column.difference_eq_ok_iff.mp h
    exact exists_eq_toArray (hsize.symm.trans (Vector.ofFn v).size_toArray)
  of_scaled {x a v} h := by
    have hsize : (x.map (· * a)).size = n := by
      rw [show x.map (· * a) = _ from h]
      exact (Vector.ofFn v).size_toArray
    exact exists_eq_toArray (x.size_map ▸ hsize)
  of_solveLinear {j b d _} _ h := by
    -- only a square equation of the length of its solution is solved
    obtain ⟨hsquare, hrows, hsize⟩ := Column.sizes_of_solve h
    obtain ⟨rows, cols, A⟩ := j
    have hd : (Vector.ofFn d).toArray.size = n := (Vector.ofFn d).size_toArray
    dsimp only at hsquare hrows
    obtain rfl : rows = n := hrows.trans (hsize.symm.trans hd)
    obtain rfl : rows = cols := hsquare
    obtain ⟨w, rfl⟩ := exists_eq_toArray hrows.symm
    obtain ⟨_, hsolve⟩ := solveLinear_toArray_eq_ok.mp h
    have honly := isOnlySolution_of_solveLinear hsolve
    exact ⟨A, w, rfl, rfl, (funext (get_ofFn w) ▸ funext (get_ofFn d) ▸ honly)⟩

theorem number_isClosed : (number : Coordinates K K K 1).IsClosed where
  of_difference {_ y _} _ := ⟨fun _ => y, rfl⟩
  of_scaled {x _ _} _ := ⟨fun _ => x, rfl⟩
  of_solveLinear {j b d tolerance} ht h := by
    -- an equation that is solved has a slope above the tolerance
    have hj : tolerance < |j| := by
      by_contra hle
      have hsingular : solveLinear j b tolerance = .error .singular :=
        if_pos (Exact.le_iff.mpr (not_lt.mp hle))
      rw [hsingular] at h
      cases h
    obtain ⟨e, honly, hsolve⟩ :=
      Scalar.exists_isOnlySolution (A := #v[#v[j]]) ht hj fun _ => b
    have hde : d = e := funext fun i => by
      rw [Subsingleton.elim i 0]
      exact Except.ok.inj (h.symm.trans hsolve)
    exact ⟨#v[#v[j]], fun _ => b, rfl, rfl, hde ▸ honly⟩

/-! ### One step -/

/-- The step from `v` to `u` goes along `d`, as far as the radius `r` allows. -/
structure MovesAlong (c : Coordinates X K J n) (r : K) (d v u : Fin n → K) : Prop where
  exists_factor : ∃ q : K, 0 < q ∧ q ≤ 1 ∧ v - u = q • d ∧ (q = 1 ↔ norm (c.point d) ≤ r)
  length : norm (c.point (v - u)) = min (norm (c.point d)) r

/-- The linear equation of the step of `s` from `v`, with the value `w`, has one solution, `d`. -/
def HasEquation (c : Coordinates X K J n) (s : Solver X K J) (v w d : Fin n → K) : Prop :=
  ∃ A : Table K n n,
    (s.derivative.at s.function (c.point v) (c.point w)).outcome = .ok (c.slope A)
      ∧ IsOnlySolution A.toMatrix w d

variable {c : Coordinates X K J n} {s : Solver X K J} {r : K}

omit [IsStrictOrderedRing K] in
/-- What is clamped to a vector is a vector, scaled or not. -/
theorem IsClosed.of_clamped (hc : c.IsClosed) {delta : X} {d : Fin n → K}
    (h : s.clamped delta = c.point d) : ∃ e, delta = c.point e := by
  rw [Solver.clamped] at h
  split at h
  next => exact ⟨d, h⟩
  next =>
    split at h
    next => exact hc.of_scaled h
    next => exact ⟨d, h⟩

/-- A step that is scaled by the factor of the clamp goes along its direction, as far as the radius
allows. -/
theorem movesAlong_shortening [ExactRoots K] (hradius : s.config.maxRadius = some r) (hr : 0 < r)
    (v d : Fin n → K) :
    c.MovesAlong r d v (v - s.config.shortening (norm (c.point d)) • d) := by
  have hpos := Config.shortening_pos hradius hr (norm (c.point d))
  obtain ⟨-, hle⟩ := Config.shortening_mem_Icc hradius hr (norm (c.point d))
  refine ⟨⟨s.config.shortening (norm (c.point d)), hpos, hle, sub_sub_cancel v _,
    Config.shortening_eq_one_iff hradius hr⟩, ?_⟩
  rw [sub_sub_cancel, c.norm_point_smul hpos.le, Config.shortening_mul hradius hr]

/-- A step leads along the solution of its linear equation. -/
theorem IsClosed.movesAlong [ExactRoots K] (hc : c.IsClosed) (hradius : s.config.maxRadius = some r)
    {v : Fin n → K} {given : Option X} {y : X} (h : (s.step (c.point v) given).outcome = .ok y) :
    ∃ w d u, s.BeginsStep (c.point v) given (c.point w) ∧ c.HasEquation s v w d ∧ y = c.point u
      ∧ c.MovesAlong r d v u := by
  obtain ⟨fx, hbegins, hadvance⟩ := Solver.step_eq_ok_iff.mp h
  obtain ⟨-, -, hradii, ht⟩ := Exact.validate_eq_ok_iff.mp hbegins.valid
  obtain ⟨jacobian, delta, hslope, -, hsolve, hmove, -, -⟩ := Solver.advance_eq_ok_iff.mp hadvance
  -- the number of coordinates is that of `v`, from the subtraction back to the equation
  obtain ⟨e, he⟩ := hc.of_difference hmove
  obtain ⟨d, rfl⟩ := hc.of_clamped he
  obtain ⟨A, w, rfl, rfl, honly⟩ := hc.of_solveLinear ht hsolve
  rw [clamped_point, c.difference_point] at hmove
  exact ⟨w, d, _, hbegins, ⟨A, hslope, honly⟩, (Except.ok.inj hmove).symm,
    movesAlong_shortening hradius (hradii r hradius) v d⟩

/-! ### A run -/

omit [IsStrictOrderedRing K] in
theorem MovesAlong.length_le {d v u : Fin n → K} (h : c.MovesAlong r d v u) :
    norm (c.point (v - u)) ≤ r :=
  h.length.trans_le (min_le_right _ _)

/-- The induction is on the steps; the first one leads from the start to where the others begin. -/
theorem IsClosed.norm_le [ExactRoots K] (hc : c.IsClosed) (hradius : s.config.maxRadius = some r)
    {x y : X} {k : ℕ} (h : s.StepsTo x k y) :
    ∀ v, x = c.point v → ∃ u, y = c.point u ∧ norm (c.point (u - v)) ≤ k * r := by
  induction h with
  | start x =>
    rintro v rfl
    refine ⟨v, rfl, ?_⟩
    rw [sub_self, c.norm_point_zero, Nat.cast_zero, zero_mul]
  | @next x y z given k hstep _ ih =>
    rintro v rfl
    obtain ⟨-, d, m, -, -, rfl, hmoves⟩ := hc.movesAlong hradius hstep
    obtain ⟨u, rfl, hle⟩ := ih m rfl
    refine ⟨u, rfl, ?_⟩
    have hfirst : norm (c.point (m - v)) ≤ r := by
      rw [← neg_sub, c.norm_point_neg]
      exact hmoves.length_le
    calc norm (c.point (u - v)) = norm (c.point (u - m + (m - v))) := by rw [sub_add_sub_cancel]
      _ ≤ norm (c.point (u - m)) + norm (c.point (m - v)) := c.norm_point_add_le _ _
      _ ≤ k * r + r := add_le_add hle hfirst
      _ = (k + 1 : ℕ) * r := by rw [Nat.cast_succ, add_one_mul]

/-- From the points with `n` coordinates every step of `s` leads along the solution of its linear
equation, as far as the radius `r` allows, and `k` steps lead no further than `k` times the radius,
be they calls of `step` or the steps of a search. -/
structure StepsWithin (c : Coordinates X K J n) (s : Solver X K J) (r : K) : Prop where
  step (v : Fin n → K) (given : Option X) (y : X) :
    (s.step (c.point v) given).outcome = .ok y →
      ∃ w d u, s.BeginsStep (c.point v) given (c.point w) ∧ c.HasEquation s v w d
        ∧ y = c.point u ∧ c.MovesAlong r d v u
  steps (v : Fin n → K) (k : ℕ) (y : X) : s.StepsTo (c.point v) k y →
    ∃ u, y = c.point u ∧ norm (c.point (u - v)) ≤ k * r
  iterates (v : Fin n → K) (k : ℕ) (y : X) : s.Iterates (c.point v) k y →
    ∃ u, y = c.point u ∧ norm (c.point (u - v)) ≤ k * r

/-- All three follow, since the iterates of a search are steps. -/
theorem IsClosed.stepsWithin [ExactRoots K] (hc : c.IsClosed) (hvalid : s.config.validate = .ok ())
    (hradius : s.config.maxRadius = some r) : c.StepsWithin s r where
  step _ _ _ h := hc.movesAlong hradius h
  steps v _ _ h := hc.norm_le hradius h v rfl
  iterates v _ _ h := hc.norm_le hradius (h.stepsTo hvalid (c.isFinite_point v)) v rfl

end Coordinates

open Coordinates

/-- **The trust radius bounds every step.**  In all three spaces, for points with any number of
coordinates, every function and every way to its derivative, a step has the direction of the
solution of its linear equation and the smaller one of the lengths of the solution and of the
radius. -/
theorem steps_withinRadius [IsStrictOrderedRing K] [ExactRoots K] {r : K} :
    (∀ s : Solver (Array K) K (Jacobian K), s.config.validate = .ok () →
      s.config.maxRadius = some r →
        ∀ n, (column : Coordinates (Array K) K (Jacobian K) n).StepsWithin s r) ∧
    (∀ (n : ℕ) (s : Solver (Vector K n) K (Table K n n)), s.config.validate = .ok () →
      s.config.maxRadius = some r → fixed.StepsWithin s r) ∧
    (∀ s : Solver K K K, s.config.validate = .ok () → s.config.maxRadius = some r →
      number.StepsWithin s r) := by
  refine ⟨fun s hvalid hradius n => ?_, fun n s hvalid hradius => ?_, fun s hvalid hradius => ?_⟩
  · exact column_isClosed.stepsWithin hvalid hradius
  · exact fixed_isClosed.stepsWithin hvalid hradius
  · exact number_isClosed.stepsWithin hvalid hradius

/-- The solution of the first equation has length five, and the step length two. -/
theorem steps_withinRadius_transposing :
    let b : Vector ℝ 2 := #v[4, 3]
    let y : Fin 2 → ℝ := ![6 / 5, 8 / 5]
    let s : Solver (Array ℝ) ℝ (Jacobian ℝ) :=
      ⟨Affine.evaluate ⟨⟨2, 2, transposing⟩, b.toArray⟩, .differences ⟨1, .forward⟩,
        ⟨1 / 10, 4, some 2, 1, .forward, 0⟩⟩
    s.config.validate = .ok () ∧ s.config.maxRadius = some 2
      ∧ (s.step #[0, 0] none).outcome = .ok (column.point y)
      ∧ (∃ w d u : Fin 2 → ℝ, column.HasEquation s 0 w d ∧ column.point y = column.point u
          ∧ column.MovesAlong 2 d 0 u)
      ∧ ∃ u : Fin 2 → ℝ, column.point y = column.point u
          ∧ norm (column.point (u - 0)) ≤ (1 : ℕ) * (2 : ℝ) := by
  intro b y s
  have hvalid : s.config.validate = .ok () := by
    refine Exact.validate_eq_ok_iff.mpr ⟨by norm_num [s], one_pos, ?_, le_rfl⟩
    rintro r ⟨⟩
    exact two_pos
  have haffine : column.SolvesAffine s transposing b.get :=
    column_solvesAffine hvalid transposing_regular (.differences one_pos)
  have hupdate := haffine.updates transposing_mulVec 0
  -- two of the five units to the solution
  have hnext : 0 - s.config.shortening (norm (column.point (0 - ![3, 4] : Fin 2 → ℝ)))
      • (0 - ![3, 4] : Fin 2 → ℝ) = y := by
    have hfactor : s.config.shortening 5 = 2 / 5 := if_pos (by norm_num)
    rw [norm_threeFour, hfactor]
    funext i
    fin_cases i <;> norm_num [y]
  rw [hnext] at hupdate
  have hfin : isFinite (column.point (0 : Fin 2 → ℝ)) = true := column.isFinite_point 0
  have hstep := hupdate.step_eq_ok hvalid hfin
  obtain ⟨hbound, -, -⟩ := steps_withinRadius (K := ℝ) (r := 2)
  have hwithin := hbound s hvalid rfl 2
  obtain ⟨w, d, u, -, hequation, hu, hmoves⟩ := hwithin.step 0 none _ hstep
  exact ⟨hvalid, rfl, hstep, ⟨w, d, u, hequation, hu, hmoves⟩,
    hwithin.iterates 0 1 _ (.next hupdate (.start _))⟩

end NewtonMethod
