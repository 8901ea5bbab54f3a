/-
NewtonMethod/Proofs/AffineUpdate.lean

One Newton update for `A·x - b`, in exact arithmetic.

Along a coordinate an affine function rises in proportion to the distance, so
both difference quotients are exact whatever the distance is: each is a column
of `A` (`IsAffine.outcome_forwardColumn`, `IsAffine.outcome_centralColumn`).
Every way to the derivative leads to the same table (`IsAffine.outcome_at`).

The step `δ` from `v` therefore solves `A·δ = A·v - b`.  Where `w` is the
solution of the system, `v - w` solves this as well, and no pivot being zero it
is the step.  So an update goes straight towards the solution, with `q = 1` if
nothing bounds its length:

    v  ↦  v - q·(v - w)    where    q = min 1 (radius / ‖v - w‖).

This is `SolvesAffine.updates`, and it is all that a search needs to know of
the space, of the derivative and of elimination.  It is proved from the laws of
`Coordinates`; a space enters with its own definition of `A·x - b` only
(`column_isAffine`, `fixed_isAffine`, `number_isAffine`).
-/
import Mathlib.Algebra.Order.Field.Basic
import NewtonMethod.Affine
import NewtonMethod.Proofs.Iterates
import NewtonMethod.Proofs.Quotients

namespace NewtonMethod

open Matrix PointSpace Run

/-! ### The length of a step -/

section Shortening

variable {K : Type} [Field K] [LinearOrder K]

/-- The factor that shortens a step of the given length to the trust radius. -/
def Config.shortening (config : Config K) (length : K) : K :=
  match config.maxRadius with
  | none => 1
  | some radius => if radius < length then radius / length else 1

variable [IsStrictOrderedRing K] {config : Config K} {r : K}

theorem Config.shortening_mem_Icc (hradius : config.maxRadius = some r) (hr : 0 < r) (length : K) :
    config.shortening length ∈ Set.Icc 0 1 := by
  rw [Config.shortening, hradius]
  dsimp only
  split
  next hlt =>
    have hlength : 0 < length := hr.trans hlt
    exact ⟨by positivity, (div_le_one hlength).mpr hlt.le⟩
  next => exact ⟨zero_le_one, le_rfl⟩

/-- A step shortened to the radius leaves that much less of the way. -/
theorem Config.one_sub_shortening_mul (hradius : config.maxRadius = some r) (hr : 0 < r)
    (length : K) : (1 - config.shortening length) * length = max 0 (length - r) := by
  rw [Config.shortening, hradius]
  dsimp only
  split
  next hlt =>
    have hlength : length ≠ 0 := (hr.trans hlt).ne'
    rw [max_eq_right (sub_pos.mpr hlt).le, sub_mul, one_mul, div_mul_cancel₀ r hlength]
  next hle => rw [max_eq_left (sub_nonpos.mpr (not_lt.mp hle)), sub_self, zero_mul]

theorem Config.shortening_pos (hradius : config.maxRadius = some r) (hr : 0 < r) (length : K) :
    0 < config.shortening length := by
  rw [Config.shortening, hradius]
  dsimp only
  split
  next hlt => exact div_pos hr (hr.trans hlt)
  next => exact one_pos

omit [IsStrictOrderedRing K] in
/-- The factor is one exactly for a step that is no longer than the radius. -/
theorem Config.shortening_eq_one_iff (hradius : config.maxRadius = some r) (hr : 0 < r)
    {length : K} : config.shortening length = 1 ↔ length ≤ r := by
  rw [Config.shortening, hradius]
  dsimp only
  split
  next hlt => simp only [div_eq_one_iff_eq (hr.trans hlt).ne', hlt.ne, hlt.not_ge]
  next hle => simp only [not_lt.mp hle]

/-- A shortened step has the length of the radius. -/
theorem Config.shortening_mul (hradius : config.maxRadius = some r) (hr : 0 < r) (length : K) :
    config.shortening length * length = min length r := by
  have hrest := Config.one_sub_shortening_mul hradius hr length
  rw [sub_mul, one_mul, sub_eq_iff_eq_add] at hrest
  rcases le_total length r with hle | hle
  · rw [max_eq_left (sub_nonpos.mpr hle), zero_add] at hrest
    rw [min_eq_left hle, ← hrest]
  · rw [max_eq_right (sub_nonneg.mpr hle)] at hrest
    rw [min_eq_right hle]
    linear_combination -hrest

end Shortening

/-! ### Exact slopes -/

/-- A product moves along a column when the vector is moved along a coordinate. -/
theorem Table.mulVec_add_single {K : Type} [Field K] {m n : ℕ} (A : Table K m n) (v : Fin n → K)
    (j : Fin n) (h : K) :
    A.toMatrix *ᵥ (v + Pi.single j h) = A.toMatrix *ᵥ v + h • A.toMatrix.col j := by
  rw [Matrix.mulVec_add, Matrix.mulVec_single, op_smul_eq_smul]

variable {X K J : Type} [Field K] [LinearOrder K] [ElementaryFunctions K] [PointSpace X K J] {n : ℕ}

/-- A way to the derivative of a function that has the slope `j` everywhere: difference quotients
over a positive distance, or `j` itself. -/
inductive Derivative.ForSlope (j : J) : Derivative X K J → Prop
  | differences {d : Differences K} (h : 0 < d.stepScale) : ForSlope j (.differences d)
  | function {slope : X → Except ShapeFault J} (h : ∀ x, slope x = .ok j) :
    ForSlope j (.function slope)

namespace Coordinates

variable (c : Coordinates X K J n)

/-- Columns that succeed for a table are assembled to that table. -/
theorem outcome_tabulate {A : Table K n n} {v w : Fin n → K} {column : ℕ → Run K X}
    (h : ∀ i : Fin n, (column i).outcome = .ok (c.point (A.toMatrix.col i))) :
    (Differences.tabulate (c.point v) (c.point w) column).outcome = .ok (c.slope A) := by
  rw [Differences.outcome_tabulate (c.dimension_point v) (c.point w) h]
  exact ofExcept_eq_ok_iff.mpr (c.assemble_point w A)

theorem outcome_sample {f : X → Except ShapeFault X} {F : (Fin n → K) → Fin n → K}
    (hf : ∀ v, f (c.point v) = .ok (c.point (F v))) (v : Fin n → K) (i : Fin n) (h : K) :
    (Differences.sample f (c.point v) i h).outcome = .ok (c.point (F (v + Pi.single i h))) := by
  refine bind_eq_ok_iff.mpr ⟨_, ofExcept_eq_ok_iff.mpr (c.perturbed_point v i h), ?_⟩
  rw [outcome_evaluate, hf]
  rfl

theorem outcome_forwardColumn {f : X → Except ShapeFault X} {F : (Fin n → K) → Fin n → K}
    (hf : ∀ v, f (c.point v) = .ok (c.point (F v))) (v : Fin n → K) (i : Fin n) (h : K) :
    (Differences.forwardColumn f (c.point v) (c.point (F v)) h i).outcome
      = .ok (c.point (h⁻¹ • (F (v + Pi.single i h) - F v))) := by
  rw [Differences.outcome_forwardColumn (c.outcome_sample hf v i h) (c.difference_point _ _),
    c.divided_point]

theorem outcome_centralColumn {f : X → Except ShapeFault X} {F : (Fin n → K) → Fin n → K}
    (hf : ∀ v, f (c.point v) = .ok (c.point (F v))) (v : Fin n → K) (i : Fin n) (h : K) :
    (Differences.centralColumn f (c.point v) h i).outcome
      = .ok (c.point ((Arithmetic.ofNat 2 * h)⁻¹
          • (F (v + Pi.single i h) - F (v + Pi.single i (-h))))) := by
  rw [Differences.outcome_centralColumn (c.outcome_sample hf v i h) (c.outcome_sample hf v i (-h))
    (c.difference_point _ _), c.divided_point]

/-- The function is `A·x - b`. -/
def IsAffine (f : X → Except ShapeFault X) (A : Table K n n) (b : Fin n → K) : Prop :=
  ∀ v, f (c.point v) = .ok (c.point (A.toMatrix *ᵥ v - b))

variable {c} {f : X → Except ShapeFault X} {A : Table K n n} {b : Fin n → K}

/-- A forward quotient of an affine function is a column of its table. -/
theorem IsAffine.outcome_forwardColumn (hf : c.IsAffine f A b) (v : Fin n → K) {h : K} (hh : h ≠ 0)
    (i : Fin n) :
    (Differences.forwardColumn f (c.point v) (c.point (A.toMatrix *ᵥ v - b)) h i).outcome
      = .ok (c.point (A.toMatrix.col i)) := by
  have hrise : A.toMatrix *ᵥ (v + Pi.single i h) - b - (A.toMatrix *ᵥ v - b)
      = h • A.toMatrix.col i := by
    rw [A.mulVec_add_single]
    abel
  rw [c.outcome_forwardColumn hf, hrise, inv_smul_smul₀ hh]

variable [IsStrictOrderedRing K]

/-- A central quotient of an affine function is the same column. -/
theorem IsAffine.outcome_centralColumn (hf : c.IsAffine f A b) (v : Fin n → K) {h : K} (hh : h ≠ 0)
    (i : Fin n) :
    (Differences.centralColumn f (c.point v) h i).outcome
      = .ok (c.point (A.toMatrix.col i)) := by
  -- the two values are twice the distance apart, and the column is between them
  have hrise : A.toMatrix *ᵥ (v + Pi.single i h) - b - (A.toMatrix *ᵥ (v + Pi.single i (-h)) - b)
      = (Arithmetic.ofNat 2 * h) • A.toMatrix.col i := by
    have htwo : (Arithmetic.ofNat 2 : K) = 2 := Nat.cast_ofNat
    rw [A.mulVec_add_single, A.mulVec_add_single, htwo, two_mul, add_smul, neg_smul]
    abel
  have htwo : (Arithmetic.ofNat 2 * h : K) ≠ 0 := mul_ne_zero (Nat.cast_ne_zero.mpr two_ne_zero) hh
  rw [c.outcome_centralColumn hf, hrise, inv_smul_smul₀ htwo]

/-- Every way to the derivative of `A·x - b` leads to the table `A`. -/
theorem IsAffine.outcome_at (hf : c.IsAffine f A b) {d : Derivative X K J}
    (hd : d.ForSlope (c.slope A)) (v : Fin n → K) :
    (d.at f (c.point v) (c.point (A.toMatrix *ᵥ v - b))).outcome = .ok (c.slope A) := by
  refine bind_eq_ok_iff.mpr ⟨(), rfl, ?_⟩
  -- the request is noted first, then the quotients are taken or the slope is evaluated
  cases hd with
  | @differences q hstep =>
    obtain ⟨h, _ | _⟩ := q
    · exact c.outcome_tabulate fun i => hf.outcome_forwardColumn v hstep.ne' i
    · exact c.outcome_tabulate fun i => hf.outcome_centralColumn v hstep.ne' i
  | function hslope =>
    refine (outcome_evaluate _ _ _).trans ?_
    rw [hslope]
    rfl

end Coordinates

/-! ### Affine functions in the three spaces -/

section Products

/-- A row times a column, summed up from the first product on, is the dot product. -/
theorem Table.rowTimes_ofFn (f g : Fin n → K) :
    Table.rowTimes (List.ofFn f) (List.ofFn g) = f ⬝ᵥ g := by
  have hfold (l : List (K × K)) (y : K) :
      l.foldl (fun y p => p.1 * p.2 + y) y = y + (l.map fun p => p.1 * p.2).sum := by
    induction l generalizing y with
    | nil => exact (add_zero y).symm
    | cons p l ih =>
      rw [List.foldl_cons, ih, List.map_cons, List.sum_cons]
      ring
  have hzip : (List.ofFn f).zip (List.ofFn g) = List.ofFn fun i => (f i, g i) :=
    List.ext_getElem (by simp) (by simp)
  have hsum : (((List.ofFn f).zip (List.ofFn g)).map fun p => p.1 * p.2).sum = f ⬝ᵥ g := by
    rw [hzip, List.map_ofFn, List.sum_ofFn]
    rfl
  rw [← hsum]
  -- the sum starts from the first product
  rcases List.ofFn f with - | ⟨a, row⟩
  · rfl
  rcases List.ofFn g with - | ⟨b, x⟩
  · rfl
  rw [List.zip_cons_cons, List.map_cons, List.sum_cons]
  exact hfold (row.zip x) (a * b)

/-- The product that is computed is that of the matrix. -/
theorem Table.times_ofFn {m : ℕ} (A : Table K m n) (v : Fin n → K) :
    A.times (Vector.ofFn v) = Vector.ofFn (A.toMatrix *ᵥ v) := by
  ext i hi
  have hrow : A[i] = Vector.ofFn (A.entry ⟨i, hi⟩) := by
    ext j hj
    rw [Vector.getElem_ofFn]
    rfl
  rw [Table.times, Vector.getElem_ofFn, Vector.getElem_ofFn]
  show Table.rowTimes A[i].toList _ = _
  rw [hrow, Vector.toList_ofFn, Vector.toList_ofFn, Table.rowTimes_ofFn]
  rfl

namespace Coordinates

variable [IsStrictOrderedRing K]

/-- `A·x - b` over vectors of fixed length. -/
theorem fixed_isAffine (A : Table K n n) (b : Vector K n) :
    fixed.IsAffine (fun x => difference (A.times x) b) A b.get := by
  intro v
  show difference (A.times (Vector.ofFn v)) b = _
  rw [Table.times_ofFn]
  nth_rewrite 1 [← ofFn_get b]
  exact fixed.difference_point (A.toMatrix *ᵥ v) b.get

/-- `A·x - b` over vectors whose length is checked. -/
theorem column_isAffine (A : Table K n n) (b : Vector K n) :
    column.IsAffine (Affine.evaluate ⟨⟨n, n, A⟩, b.toArray⟩) A b.get := by
  intro v
  have hproduct : Affine.product ⟨n, n, A⟩ (Vector.ofFn v).toArray
      = .ok (Vector.ofFn (A.toMatrix *ᵥ v)).toArray := by
    rw [Affine.product, dif_pos (Vector.ofFn v).size_toArray]
    exact congrArg (fun x => Except.ok x.toArray) (A.times_ofFn v)
  show Affine.product ⟨n, n, A⟩ (Vector.ofFn v).toArray >>= _ = _
  rw [hproduct]
  show difference (Vector.ofFn (A.toMatrix *ᵥ v)).toArray b.toArray = _
  nth_rewrite 1 [← ofFn_get b]
  exact column.difference_point (A.toMatrix *ᵥ v) b.get

/-- `a·x - b` over numbers, where the table has the one entry `a`. -/
theorem number_isAffine (a b : K) :
    number.IsAffine (fun x => .ok (a * x - b)) #v[#v[a]] fun _ => b := by
  intro v
  rw [Scalar.mulVec_eq]
  rfl

/-- The only pivot of a table with one entry is that entry. -/
theorem lt_abs_pivot {a tolerance : K} (ha : tolerance < |a|) (i : Fin 1) :
    tolerance < |(Factors.ofTable #v[#v[a]]).table.entry i i| := by
  rw [Subsingleton.elim i 0, Scalar.abs_pivot]
  exact ha

end Coordinates

end Products

/-! ### One update -/

namespace Coordinates

variable {c : Coordinates X K J n} {s : Solver X K J} {A : Table K n n} {b w : Fin n → K}

/-- A clamped step is the step times its factor. -/
theorem clamped_point (d : Fin n → K) :
    s.clamped (c.point d) = c.point (s.config.shortening (norm (c.point d)) • d) := by
  rw [Solver.clamped, Config.shortening]
  rcases s.config.maxRadius with - | radius
  · exact congrArg c.point (one_smul K d).symm
  · dsimp only
    by_cases hlt : radius < norm (c.point d)
    · rw [if_pos (Exact.lt_iff.mpr hlt), if_pos hlt, c.scaled_point]
    · rw [if_neg (mt Exact.lt_iff.mp hlt), if_neg hlt, one_smul]

/-- Where the derivative has the table `A`, whose pivots are not too small, the update goes along
the solution of the linear equation. -/
theorem exists_updates {v w : Fin n → K} (ht : 0 ≤ s.config.singularityTolerance)
    (hf : s.function (c.point v) = .ok (c.point w))
    (hslope : (s.derivative.at s.function (c.point v) (c.point w)).outcome = .ok (c.slope A))
    (hA : ∀ i, s.config.singularityTolerance < |(Factors.ofTable A).table.entry i i|) :
    ∃ d, IsOnlySolution A.toMatrix w d
      ∧ s.Updates (c.point v) (c.point (v - s.config.shortening (norm (c.point d)) • d)) := by
  -- the solve succeeds, and in exact arithmetic nothing that follows is refused
  obtain ⟨d, hd, hsolved⟩ := c.solveLinear_slope ht hA (b := w)
  refine ⟨d, hd, _, _, _, hf, c.isFinite_point w, hslope, c.isFiniteDerivative_slope A, hsolved,
    ?_, ?_, c.isFinite_point _⟩
  · rw [clamped_point, c.difference_point]
  · rw [clamped_point, c.isFinite_point]

/-- The solver seeks the root of `A·x - b`, has a way to the slope `A`, and no pivot of `A` is too
small for its settings. -/
structure SolvesAffine (c : Coordinates X K J n) (s : Solver X K J) (A : Table K n n)
    (b : Fin n → K) : Prop where
  valid : s.config.validate = .ok ()
  value : c.IsAffine s.function A b
  slope : s.derivative.ForSlope (c.slope A)
  regular : ∀ i, s.config.singularityTolerance < |(Factors.ofTable A).table.entry i i|

/-- The system has exactly one solution, since no pivot is zero. -/
theorem SolvesAffine.exists_solution (h : c.SolvesAffine s A b) :
    ∃ w, IsOnlySolution A.toMatrix b w := by
  obtain ⟨-, -, -, ht⟩ := Exact.validate_eq_ok_iff.mp h.valid
  obtain ⟨w, hw, -⟩ := c.solveLinear_slope ht h.regular (b := b)
  exact ⟨w, hw⟩

theorem SolvesAffine.hasResidual (h : c.SolvesAffine s A b) (v : Fin n → K) :
    s.HasResidual (c.point v) (norm (c.point (A.toMatrix *ᵥ v - b))) :=
  ⟨_, h.value v, c.isFinite_point _, rfl⟩

/-- The solution is accepted. -/
theorem SolvesAffine.accepts (h : c.SolvesAffine s A b) (hw : A.toMatrix *ᵥ w = b) :
    s.Accepts (c.point w) 0 := by
  obtain ⟨htolerance, -⟩ := Exact.validate_eq_ok_iff.mp h.valid
  have hresidual := h.hasResidual w
  -- the residual of the solution is the norm of zero
  rw [hw, sub_self, c.norm_point_zero] at hresidual
  exact ⟨hresidual, Exact.le_iff.mpr htolerance.le⟩

theorem SolvesAffine.report_eq_search (h : c.SolvesAffine s A b) (v : Fin n → K) {m : ℕ}
    (hm : s.config.maxIterations = m + 1) : s.report (c.point v) = s.search m 0 (c.point v) :=
  Solver.report_eq_search (Solver.checkStart_eq_pure h.valid (c.isFinite_point v)) hm

variable [IsStrictOrderedRing K]

/-- An update goes towards the solution, and all the way if its length allows. -/
theorem SolvesAffine.updates (h : c.SolvesAffine s A b) (hw : A.toMatrix *ᵥ w = b)
    (v : Fin n → K) :
    s.Updates (c.point v)
      (c.point (v - s.config.shortening (norm (c.point (v - w))) • (v - w))) := by
  obtain ⟨-, -, -, ht⟩ := Exact.validate_eq_ok_iff.mp h.valid
  obtain ⟨d, hd, hupdate⟩ :=
    exists_updates ht (h.value v) (h.value.outcome_at h.slope v) h.regular
  -- the step that leads to the solution solves the linear equation
  obtain rfl : v - w = d := hd.unique _ (by rw [Matrix.mulVec_sub, hw])
  exact hupdate

/-! ### The systems of the three spaces -/

section Systems

variable {config : Config K} {rhs : Vector K n}

theorem column_solvesAffine (hvalid : config.validate = .ok ())
    (hA : ∀ i, config.singularityTolerance < |(Factors.ofTable A).table.entry i i|)
    {d : Derivative (Array K) K (Jacobian K)} (hd : d.ForSlope ⟨n, n, A⟩) :
    column.SolvesAffine ⟨Affine.evaluate ⟨⟨n, n, A⟩, rhs.toArray⟩, d, config⟩ A rhs.get :=
  ⟨hvalid, column_isAffine A rhs, hd, hA⟩

theorem fixed_solvesAffine (hvalid : config.validate = .ok ())
    (hA : ∀ i, config.singularityTolerance < |(Factors.ofTable A).table.entry i i|)
    {d : Derivative (Vector K n) K (Table K n n)} (hd : d.ForSlope A) :
    fixed.SolvesAffine ⟨fun x => difference (A.times x) rhs, d, config⟩ A rhs.get :=
  ⟨hvalid, fixed_isAffine A rhs, hd, hA⟩

theorem number_solvesAffine (hvalid : config.validate = .ok ()) {a b : K}
    (ha : config.singularityTolerance < |a|) {d : Derivative K K K} (hd : d.ForSlope a) :
    number.SolvesAffine ⟨fun x => .ok (a * x - b), d, config⟩ #v[#v[a]] fun _ => b :=
  ⟨hvalid, number_isAffine a b, hd, lt_abs_pivot ha⟩

end Systems

end Coordinates

end NewtonMethod
