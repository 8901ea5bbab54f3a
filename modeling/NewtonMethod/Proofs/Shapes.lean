/-
NewtonMethod/Proofs/Shapes.lean

Sizes that do not match, over the lists of any length.

Let a function take lists of length `n` to lists of length `m`, and let its
derivative have `rows` rows and `cols` columns (`Solver.HasShape`).  A step
from a list of length `n` compares these numbers in two places:

* The linear equation is refused, and the search reports this, unless
  `rows = cols` and `rows = m`  (`Column.solve_eq_shape_iff`).
* The solution has then length `m`.  It is subtracted from a list of length
  `n`, which is a fault unless `m = n`  (`Column.difference_eq_error_iff`).

The second comparison is not made by the search, and its failure is not
reported.  A derivative by differences has `m` rows and `n` columns, so that it
passes the first comparison only if it passes the second.  A derivative with a
function of its own can have `m` columns where there are `n` coordinates.

`step_report_shape` says that this is the only way to end with a fault, and when
it is taken.  It is taken in the first step or never, since every iterate has
as many coordinates as the start has (`Iterates.size_eq`).
-/
import NewtonMethod.Proofs.FailureReport
import NewtonMethod.Proofs.LinearSolve

namespace NewtonMethod

open Run PointSpace

variable {α : Type}

/-! ### Sizes of lists and tables -/

/-- If every part has a value with a property, the whole list of values is had. -/
theorem Run.exists_outcome_mapM {β γ : Type} {f : β → Run α γ} {p : γ → Prop} {l : List β}
    (h : ∀ b ∈ l, ∃ c, (f b).outcome = .ok c ∧ p c) :
    ∃ cs, (l.mapM f).outcome = .ok cs ∧ cs.length = l.length ∧ ∀ c ∈ cs, p c := by
  induction l with
  | nil => exact ⟨[], rfl, rfl, fun _ hc => nomatch hc⟩
  | cons b l ih =>
    obtain ⟨⟨c, hc, hp⟩, hl⟩ := List.forall_mem_cons.mp h
    obtain ⟨cs, hcs, hlength, hps⟩ := ih hl
    refine ⟨c :: cs, ?_, congrArg (· + 1) hlength, List.forall_mem_cons.mpr ⟨hp, hps⟩⟩
    rw [List.mapM_cons]
    exact bind_eq_ok_iff.mpr ⟨c, hc, bind_eq_ok_iff.mpr ⟨cs, hcs, rfl⟩⟩

/-- Elimination itself does not speak of shapes. -/
theorem Table.solve_ne_shape [Arithmetic α] {n r c k : ℕ} (t : Table α n n) (b : Vector α n)
    (tolerance : α) : t.solve b tolerance ≠ .error (.shape r c k) := by
  rw [Table.solve]
  split
  next => rintro ⟨⟩
  next =>
    split
    next => rintro ⟨⟩
    next => rintro ⟨⟩

namespace Column

theorem exists_perturbed [Add α] {x : Array α} {i : ℕ} (hi : i < x.size) (h : α) :
    ∃ y, perturbed x i h = .ok y ∧ y.size = x.size :=
  ⟨x.set i (x[i] + h), dif_pos hi, x.size_set hi⟩

theorem difference_eq_ok_iff [Sub α] {x y z : Array α} :
    difference x y = .ok z ↔ x.size = y.size ∧ x.zipWith (· - ·) y = z := by
  rw [difference]
  split
  next h => simp [h]
  next h => simp [h]

theorem difference_eq_error_iff [Sub α] {x y : Array α} :
    (∃ f, difference x y = .error f) ↔ x.size ≠ y.size := by
  rw [difference]
  split
  next h => simp [h]
  next h => simp [h]

theorem size_of_difference [Sub α] {x y z : Array α} (h : difference x y = .ok z) :
    z.size = x.size := by
  obtain ⟨hsize, rfl⟩ := difference_eq_ok_iff.mp h
  rw [Array.size_zipWith, ← hsize, min_self]

theorem exists_assemble {rows : ℕ} {columns : List (Array α)}
    (h : ∀ column ∈ columns, column.size = rows) :
    ∃ t : Table α rows columns.length, assemble rows columns = .ok ⟨rows, columns.length, t⟩ :=
  ⟨_, dif_pos fun column hcolumn => (h column hcolumn).ge⟩

variable [Arithmetic α]

/-- An equation that is solved has one size. -/
theorem sizes_of_solve {j : Jacobian α} {rhs d : Array α} {tolerance : α}
    (h : solve j rhs tolerance = .ok d) :
    j.rows = j.cols ∧ j.rows = rhs.size ∧ d.size = rhs.size := by
  obtain ⟨rows, cols, t⟩ := j
  -- with sizes that match elimination takes over, and with others there is no answer
  by_cases hshape : rows = cols ∧ rows = rhs.size
  · obtain ⟨rfl, rfl⟩ := hshape
    have hfixed : solve ⟨rhs.size, rhs.size, t⟩ rhs tolerance
        = (t.solve ⟨rhs, rfl⟩ tolerance).map Vector.toArray := solveLinear_toArray t ⟨rhs, rfl⟩ _
    rw [hfixed] at h
    rcases hsolve : t.solve ⟨rhs, rfl⟩ tolerance with e | v
    · rw [hsolve] at h
      cases h
    · rw [hsolve] at h
      obtain rfl : v.toArray = d := Except.ok.inj h
      exact ⟨rfl, rfl, v.size_toArray⟩
  · rw [solve, dif_neg hshape] at h
    cases h

/-- A system is refused for its shape if two of its three sizes differ. -/
theorem solve_eq_shape_iff {j : Jacobian α} {rhs : Array α} {tolerance : α} {r c k : ℕ} :
    solve j rhs tolerance = .error (.shape r c k)
      ↔ ¬(j.rows = j.cols ∧ j.rows = rhs.size) ∧ r = j.rows ∧ c = j.cols ∧ k = rhs.size := by
  obtain ⟨rows, cols, t⟩ := j
  by_cases hshape : rows = cols ∧ rows = rhs.size
  · -- elimination takes over, and its only failure is another one
    refine ⟨fun h => ?_, fun h => absurd hshape h.1⟩
    obtain ⟨rfl, rfl⟩ := hshape
    have hfixed : solve ⟨rhs.size, rhs.size, t⟩ rhs tolerance
        = (t.solve ⟨rhs, rfl⟩ tolerance).map Vector.toArray := solveLinear_toArray t ⟨rhs, rfl⟩ _
    rw [hfixed] at h
    rcases hsolve : t.solve ⟨rhs, rfl⟩ tolerance with e | v
    · rw [hsolve] at h
      obtain rfl : e = .shape r c k := Except.error.inj h
      exact absurd hsolve (Table.solve_ne_shape t _ tolerance)
    · rw [hsolve] at h
      cases h
  · rw [solve, dif_neg hshape]
    constructor
    · rintro ⟨⟩
      exact ⟨hshape, rfl, rfl, rfl⟩
    · rintro ⟨-, rfl, rfl, rfl⟩
      rfl

end Column

/-! ### The shape of a problem -/

/-- The derivative has `rows` rows and `cols` columns at every list of length `n`, the function
having values of length `m`. -/
inductive Derivative.HasShape (n m : ℕ) : Derivative (Array α) α (Jacobian α) → ℕ → ℕ → Prop
  | differences (d : Differences α) : HasShape n m (.differences d) m n
  | function {slope : Array α → Except ShapeFault (Jacobian α)} {rows cols : ℕ}
      (value : ∀ x : Array α, x.size = n →
        ∃ t : Table α rows cols, slope x = .ok ⟨rows, cols, t⟩) :
      HasShape n m (.function slope) rows cols

/-- The function takes every list of length `n` to one of length `m`, and the derivative there has
`rows` rows and `cols` columns. -/
structure Solver.HasShape (s : Solver (Array α) α (Jacobian α)) (n m rows cols : ℕ) : Prop where
  value : ∀ x : Array α, x.size = n → ∃ fx, s.function x = .ok fx ∧ fx.size = m
  slope : s.derivative.HasShape n m rows cols

variable [Arithmetic α]

section Differences

variable {f : Array α → Except ShapeFault (Array α)} {n m : ℕ} {x fx : Array α}

/-- A sample at a coordinate of the point has a value, of the length of the others. -/
theorem Differences.exists_sample
    (hf : ∀ x : Array α, x.size = n → ∃ fx, f x = .ok fx ∧ fx.size = m) (hx : x.size = n) {i : ℕ}
    (hi : i < n) (h : α) : ∃ y, (sample f x i h).outcome = .ok y ∧ y.size = m := by
  obtain ⟨z, hz, hzsize⟩ := Column.exists_perturbed (hx ▸ hi : i < x.size) h
  obtain ⟨y, hy, hysize⟩ := hf z (hzsize.trans hx)
  refine ⟨y, bind_eq_ok_iff.mpr ⟨z, ofExcept_eq_ok_iff.mpr hz, ?_⟩, hysize⟩
  rw [outcome_evaluate]
  exact ofExcept_eq_ok_iff.mpr hy

/-- Two values of the function have a quotient, which is as long as they are. -/
theorem Differences.exists_quotient {ahead behind : Array α} (hahead : ahead.size = m)
    (hbehind : behind.size = m) (a : α) :
    ∃ y, (do
      let rise ← (ofExcept (difference ahead behind) : Run α (Array α))
      return divided rise a).outcome = .ok y ∧ y.size = m := by
  have hrise : Column.difference ahead behind = .ok (ahead.zipWith (· - ·) behind) :=
    if_pos (hahead.trans hbehind.symm)
  refine ⟨_, bind_eq_ok_iff.mpr ⟨_, ofExcept_eq_ok_iff.mpr hrise, rfl⟩, ?_⟩
  show (Array.map _ _).size = m
  rw [Array.size_map, Column.size_of_difference hrise, hahead]

/-- A derivative by differences has a row for each entry of a value and a column for each
coordinate. -/
theorem Differences.exists_derivative
    (hf : ∀ x : Array α, x.size = n → ∃ fx, f x = .ok fx ∧ fx.size = m) (hx : x.size = n)
    (hfx : fx.size = m) (d : Differences α) :
    ∃ t : Table α m n, (d.derivative f x fx).outcome = .ok ⟨m, n, t⟩ := by
  -- it suffices that every column has a value, of the right length
  have htabulate : ∀ column : ℕ → Run α (Array α),
      (∀ i < n, ∃ y, (column i).outcome = .ok y ∧ y.size = m) →
      ∃ t : Table α m n, (tabulate x fx column : Run α (Jacobian α)).outcome = .ok ⟨m, n, t⟩ := by
    intro column hcolumn
    obtain ⟨columns, hcolumns, hlength, hsizes⟩ :
        ∃ columns, ((List.range x.size).mapM column).outcome = .ok columns
          ∧ columns.length = (List.range x.size).length ∧ ∀ c ∈ columns, c.size = m :=
      exists_outcome_mapM fun i hi => hcolumn i (hx ▸ List.mem_range.mp hi)
    obtain rfl : columns.length = n := by rw [hlength, List.length_range, hx]
    subst hfx
    obtain ⟨t, ht⟩ := Column.exists_assemble hsizes
    exact ⟨t, bind_eq_ok_iff.mpr ⟨columns, hcolumns, ofExcept_eq_ok_iff.mpr ht⟩⟩
  obtain ⟨h, _ | _⟩ := d
  · -- forward differences
    refine htabulate _ fun i hi => ?_
    obtain ⟨ahead, hahead, hsize⟩ := exists_sample hf hx hi h
    obtain ⟨y, hy, hysize⟩ := exists_quotient hsize hfx h
    exact ⟨y, bind_eq_ok_iff.mpr ⟨ahead, hahead, hy⟩, hysize⟩
  · -- central differences
    refine htabulate _ fun i hi => ?_
    obtain ⟨ahead, hahead, hsize⟩ := exists_sample hf hx hi h
    obtain ⟨behind, hbehind, hsize'⟩ := exists_sample hf hx hi (-h)
    obtain ⟨y, hy, hysize⟩ := exists_quotient hsize hsize' (Arithmetic.ofNat 2 * h)
    exact ⟨y, bind_eq_ok_iff.mpr ⟨ahead, hahead, bind_eq_ok_iff.mpr ⟨behind, hbehind, hy⟩⟩, hysize⟩

end Differences

namespace Solver

/-! ### Steps that leave no value -/

section Step

variable {X J : Type} [PointSpace X α J] {s : Solver X α J} {x : X}

/-- The linear equation of the step from `x` can be set up, everything in it being finite. -/
structure Equation (s : Solver X α J) (x fx : X) (jacobian : J) : Prop where
  valid : s.config.validate = .ok ()
  start_finite : isFinite x = true
  value : s.function x = .ok fx
  value_finite : isFinite fx = true
  slope : s.HasSlope x fx jacobian

/-- A step that evaluates the function stops for its start, for the value or as an advance does. -/
theorem step_none_eq_error_iff {stop : Stop α} :
    (s.step x none).outcome = .error stop
      ↔ (s.checkStart x).outcome = .error stop
        ∨ s.config.validate = .ok () ∧ isFinite x = true
          ∧ ((∃ f, s.function x = .error f ∧ stop = .fault f)
            ∨ (∃ fx, s.function x = .ok fx ∧ isFinite fx = false
                ∧ stop = .failure (.nonFiniteValue .function 0 (coordinates x)))
            ∨ ∃ fx, s.function x = .ok fx ∧ isFinite fx = true ∧ s.StepStops 0 x fx stop) := by
  rw [step, bind_eq_error_iff]
  refine or_congr_right ?_
  dsimp only
  rw [← and_assoc, ← checkStart_eq_ok_iff]
  constructor
  · rintro ⟨⟨⟩, hstart, h⟩
    refine ⟨hstart, ?_⟩
    -- the evaluation has no value, or the value is looked at
    rcases bind_eq_error_iff.mp h with h | ⟨fx, hf, h⟩
    · rw [outcome_evaluate] at h
      exact .inl (ofExcept_eq_error_iff.mp h)
    · rw [outcome_evaluate] at hf
      have hf := ofExcept_eq_ok_iff.mp hf
      rw [checkResidual] at h
      rcases hfin : isFinite fx with - | -
      · rw [hfin] at h
        obtain rfl := Except.error.inj h
        exact .inr (.inl ⟨fx, hf, hfin, rfl⟩)
      · rw [hfin] at h
        exact .inr (.inr ⟨fx, hf, hfin, advance_eq_error_iff.mp h⟩)
  · rintro ⟨hstart, h⟩
    refine ⟨(), hstart, bind_eq_error_iff.mpr ?_⟩
    rw [outcome_evaluate]
    rcases h with h | ⟨fx, hf, hfin, rfl⟩ | ⟨fx, hf, hfin, h⟩
    · exact .inl (ofExcept_eq_error_iff.mpr h)
    · refine .inr ⟨fx, ofExcept_eq_ok_iff.mpr hf, ?_⟩
      rw [checkResidual, if_neg (Bool.eq_false_iff.mp hfin)]
      rfl
    · refine .inr ⟨fx, ofExcept_eq_ok_iff.mpr hf, ?_⟩
      rw [checkResidual, if_pos hfin]
      exact advance_eq_error_iff.mpr h

theorem step_eq_dimensionMismatch_iff {r c k : ℕ} :
    (s.step x none).outcome = .error (.failure (.dimensionMismatch r c k))
      ↔ ∃ fx jacobian, s.Equation x fx jacobian
        ∧ solveLinear jacobian fx s.config.singularityTolerance = .error (.shape r c k) := by
  rw [step_none_eq_error_iff, checkStart_eq_error_iff]
  constructor
  · rintro ((⟨_, -, hstop⟩ | ⟨-, -, hstop⟩) | ⟨hvalid, hx, h⟩)
    · cases hstop
    · cases hstop
    · rcases h with ⟨_, -, hstop⟩ | ⟨_, -, -, hstop⟩ | ⟨fx, hf, hfin, hstops⟩
      · cases hstop
      · cases hstop
      · cases hstops with
        | shape hslope hslopefin hsolve =>
          exact ⟨fx, _, ⟨hvalid, hx, hf, hfin, hslope, hslopefin⟩, hsolve⟩
  · rintro ⟨fx, jacobian, ⟨hvalid, hx, hf, hfin, hslope, hslopefin⟩, hsolve⟩
    exact .inr ⟨hvalid, hx, .inr (.inr ⟨fx, hf, hfin, .shape hslope hslopefin hsolve⟩)⟩

/-- A fault ends a search at a point that it tests. -/
theorem report_eq_fault_iff {f : ShapeFault} :
    (s.report x).outcome = .error (.fault f) ↔ ∃ i y, s.Tests x i y ∧ s.StopsAt i y (.fault f) := by
  rw [report_eq_error_iff, checkStart_eq_error_iff]
  constructor
  · rintro ((⟨_, -, hstop⟩ | ⟨-, -, hstop⟩) | ⟨-, -, -, hstop⟩ | h)
    · cases hstop
    · cases hstop
    · cases hstop
    · exact h
  · exact fun h => .inr (.inr h)

end Step

/-! ### Sizes along a search -/

variable {s : Solver (Array α) α (Jacobian α)} {n m rows cols : ℕ} {x y fx : Array α}

theorem size_clamped (s : Solver (Array α) α (Jacobian α)) (delta : Array α) :
    (s.clamped delta).size = delta.size := by
  rw [clamped]
  rcases s.config.maxRadius with - | radius
  · rfl
  · dsimp only
    split
    next => exact Array.size_map
    next => rfl

/-- An update has as many coordinates as the point that it comes from. -/
theorem Updates.size_eq (h : s.Updates x y) : y.size = x.size := by
  obtain ⟨_, _, _, -, -, -, -, -, hmove, -, -⟩ := h
  exact Column.size_of_difference hmove

theorem Iterates.size_eq {k : ℕ} (h : s.Iterates x k y) : y.size = x.size := by
  induction h with
  | start x => rfl
  | next hxy _ ih => exact ih.trans hxy.size_eq

namespace HasShape

variable (h : s.HasShape n m rows cols)

include h

omit [Arithmetic α] in
theorem size_value (hx : x.size = n) (hf : s.function x = .ok fx) : fx.size = m := by
  obtain ⟨fx', hf', hsize⟩ := h.value x hx
  obtain rfl : fx' = fx := Except.ok.inj (hf'.symm.trans hf)
  exact hsize

omit [Arithmetic α] in
theorem function_ne_error (hx : x.size = n) {f : ShapeFault} : s.function x ≠ .error f := by
  intro hf
  obtain ⟨fx, hfx, -⟩ := h.value x hx
  rw [hf] at hfx
  cases hfx

/-- The derivative at a point of the space is a table of the given shape. -/
theorem exists_at (hx : x.size = n) (hfx : fx.size = m) :
    ∃ t : Table α rows cols,
      (s.derivative.at s.function x fx).outcome = .ok ⟨rows, cols, t⟩ := by
  obtain ⟨function, derivative, config⟩ := s
  obtain ⟨hf, hslope⟩ := h
  -- by differences, or with a function of its own
  cases hslope with
  | differences d =>
    obtain ⟨t, ht⟩ := d.exists_derivative hf hx hfx
    exact ⟨t, bind_eq_ok_iff.mpr ⟨(), rfl, ht⟩⟩
  | function hslope =>
    obtain ⟨t, ht⟩ := hslope x hx
    refine ⟨t, bind_eq_ok_iff.mpr ⟨(), rfl, ?_⟩⟩
    show (evaluate _ _ _ : Run α (Jacobian α)).outcome = _
    rw [outcome_evaluate]
    exact ofExcept_eq_ok_iff.mpr ht

theorem sizes_slope {jacobian : Jacobian α} (hx : x.size = n) (hfx : fx.size = m)
    (hslope : (s.derivative.at s.function x fx).outcome = .ok jacobian) :
    jacobian.rows = rows ∧ jacobian.cols = cols := by
  obtain ⟨t, ht⟩ := h.exists_at hx hfx
  obtain rfl : _ = jacobian := Except.ok.inj (ht.symm.trans hslope)
  exact ⟨rfl, rfl⟩

/-- The equation of a step is refused for its shape by its sizes alone. -/
theorem solveLinear_eq_shape_iff {jacobian : Jacobian α} {tolerance : α} {r c k : ℕ}
    (hx : x.size = n) (hf : s.function x = .ok fx) (hslope : s.HasSlope x fx jacobian) :
    solveLinear jacobian fx tolerance = .error (.shape r c k)
      ↔ ¬(rows = cols ∧ rows = m) ∧ r = rows ∧ c = cols ∧ k = m := by
  have hfx := h.size_value hx hf
  obtain ⟨hrows, hcols⟩ := h.sizes_slope hx hfx hslope.1
  rw [← hrows, ← hcols, ← hfx]
  exact Column.solve_eq_shape_iff

/-- A solution of the equation of a step is as long as the values of the function, and there is one
only if the equation has one size. -/
theorem sizes_solution {jacobian : Jacobian α} {delta : Array α} {tolerance : α} (hx : x.size = n)
    (hf : s.function x = .ok fx) (hslope : s.HasSlope x fx jacobian)
    (hsolve : solveLinear jacobian fx tolerance = .ok delta) :
    rows = cols ∧ rows = m ∧ delta.size = m := by
  have hfx := h.size_value hx hf
  obtain ⟨hrows, hcols⟩ := h.sizes_slope hx hfx hslope.1
  rw [← hrows, ← hcols, ← hfx]
  exact Column.sizes_of_solve hsolve

/-- There is an update only if all sizes agree. -/
theorem eq_of_updates (hx : x.size = n) (hxy : s.Updates x y) : rows = cols ∧ rows = m ∧ m = n := by
  obtain ⟨fx, jacobian, delta, hf, -, hslope, hslopefin, hsolve, hmove, -, -⟩ := hxy
  obtain ⟨hsquare, hrows, hdelta⟩ := h.sizes_solution hx hf ⟨hslope, hslopefin⟩ hsolve
  obtain ⟨hsize, -⟩ := Column.difference_eq_ok_iff.mp hmove
  refine ⟨hsquare, hrows, ?_⟩
  rw [← hx, hsize, size_clamped, hdelta]

/-- If the sizes do not all agree, the start is the only iterate. -/
theorem eq_of_iterates {k : ℕ} (hx : x.size = n) (hsizes : ¬(rows = cols ∧ rows = m ∧ m = n))
    (hy : s.Iterates x k y) : k = 0 ∧ y = x := by
  cases hy with
  | start => exact ⟨rfl, rfl⟩
  | next hxy _ => exact absurd (h.eq_of_updates hx hxy) hsizes

/-- A step ends with a fault exactly if its equation is solved and the solution is not as long as
the point. -/
theorem stepStops_fault_iff {i : ℕ} (hx : x.size = n) (hf : s.function x = .ok fx) :
    (∃ f, s.StepStops i x fx (.fault f))
      ↔ (rows = cols ∧ rows = m ∧ m ≠ n)
        ∧ ∃ jacobian delta, s.HasSlope x fx jacobian
          ∧ solveLinear jacobian fx s.config.singularityTolerance = .ok delta := by
  constructor
  · rintro ⟨f, hstops⟩
    cases hstops with
    | slopeFault hslope =>
      -- the derivative has a value
      obtain ⟨t, ht⟩ := h.exists_at hx (h.size_value hx hf)
      rw [ht] at hslope
      cases hslope
    | @moveFault jacobian delta _ hslope hslopefin hsolve hmove =>
      obtain ⟨hsquare, hrows, hdelta⟩ := h.sizes_solution hx hf ⟨hslope, hslopefin⟩ hsolve
      refine ⟨⟨hsquare, hrows, ?_⟩, jacobian, delta, ⟨hslope, hslopefin⟩, hsolve⟩
      have hne := Column.difference_eq_error_iff.mp ⟨f, hmove⟩
      rw [size_clamped, hdelta, hx] at hne
      exact hne.symm
  · rintro ⟨⟨-, -, hne⟩, jacobian, delta, ⟨hslope, hslopefin⟩, hsolve⟩
    obtain ⟨-, -, hdelta⟩ := h.sizes_solution hx hf ⟨hslope, hslopefin⟩ hsolve
    have hsize : x.size ≠ (s.clamped delta).size := by
      rw [size_clamped, hdelta, hx]
      exact hne.symm
    obtain ⟨f, hmove⟩ := Column.difference_eq_error_iff.mpr hsize
    exact ⟨f, .moveFault hslope hslopefin hsolve hmove⟩

/-- For a step of its own, the same of the whole step. -/
theorem step_fault_iff (hx : x.size = n) :
    (∃ f, (s.step x none).outcome = .error (.fault f))
      ↔ (rows = cols ∧ rows = m ∧ m ≠ n)
        ∧ ∃ fx jacobian delta, s.Equation x fx jacobian
          ∧ solveLinear jacobian fx s.config.singularityTolerance = .ok delta := by
  simp only [step_none_eq_error_iff, checkStart_eq_error_iff]
  constructor
  · rintro ⟨f, (⟨_, -, hstop⟩ | ⟨-, -, hstop⟩) | ⟨hvalid, hfin, hstops⟩⟩
    · cases hstop
    · cases hstop
    · rcases hstops with ⟨f', hf, -⟩ | ⟨_, -, -, hstop⟩ | ⟨fx, hf, hfxfin, hstops⟩
      · exact absurd hf (h.function_ne_error hx)
      · cases hstop
      · obtain ⟨hsizes, jacobian, delta, hslope, hsolve⟩ :=
          (h.stepStops_fault_iff hx hf).mp ⟨f, hstops⟩
        exact ⟨hsizes, fx, jacobian, delta, ⟨hvalid, hfin, hf, hfxfin, hslope⟩, hsolve⟩
  · rintro ⟨hsizes, fx, jacobian, delta, ⟨hvalid, hfin, hf, hfxfin, hslope⟩, hsolve⟩
    obtain ⟨f, hstops⟩ := (h.stepStops_fault_iff (i := 0) hx hf).mpr
      ⟨hsizes, jacobian, delta, hslope, hsolve⟩
    exact ⟨f, .inr ⟨hvalid, hfin, .inr (.inr ⟨fx, hf, hfxfin, hstops⟩)⟩⟩

/-- A search that ends with a fault does so at its start. -/
theorem report_fault_iff (hx : x.size = n) :
    (∃ f, (s.report x).outcome = .error (.fault f))
      ↔ (rows = cols ∧ rows = m ∧ m ≠ n)
        ∧ ∃ fx jacobian delta, s.StepsFrom x 0 x fx ∧ s.HasSlope x fx jacobian
          ∧ solveLinear jacobian fx s.config.singularityTolerance = .ok delta := by
  simp only [report_eq_fault_iff]
  constructor
  · rintro ⟨f, i, y, htest, hstops⟩
    have hy : y.size = n := htest.iterate.size_eq.trans hx
    cases hstops with
    | fault hf => exact absurd hf (h.function_ne_error hy)
    | @step fy _ hf hfin hle hmore hstops =>
      obtain ⟨hsizes, jacobian, delta, hslope, hsolve⟩ :=
        (h.stepStops_fault_iff hy hf).mp ⟨f, hstops⟩
      -- with these sizes there is no step, so the point of the fault is the start
      obtain ⟨rfl, rfl⟩ := h.eq_of_iterates hx (fun hall => hsizes.2.2 hall.2.2) htest.iterate
      exact ⟨hsizes, fy, jacobian, delta, ⟨htest, hf, hfin, hle, hmore⟩, hslope, hsolve⟩
  · rintro ⟨hsizes, fx, jacobian, delta, ⟨htest, hf, hfin, hle, hmore⟩, hslope, hsolve⟩
    obtain ⟨f, hstops⟩ := (h.stepStops_fault_iff (i := 0) hx hf).mpr
      ⟨hsizes, jacobian, delta, hslope, hsolve⟩
    exact ⟨f, 0, x, htest, .step hf hfin hle hmore hstops⟩

end HasShape

/-! ### What is reported and what is not -/

/-- **Sizes that do not match.**  Let the function take lists of length `n` to lists of length `m`
and the derivative have `rows` rows and `cols` columns.  Every iterate has length `n`.  A step whose
equation can be set up reports its shape exactly if `rows`, `cols` and `m` are not all equal, and it
ends with a fault exactly if they are, the equation is solved and `m` is not `n`.  A search does so
in its first step or never. -/
theorem step_report_shape (s : Solver (Array α) α (Jacobian α)) {n m rows cols : ℕ}
    (h : s.HasShape n m rows cols) {x : Array α} (hx : x.size = n) :
    (∀ k y, s.Iterates x k y → y.size = n)
    ∧ (∀ r c k, (s.step x none).outcome = .error (.failure (.dimensionMismatch r c k))
        ↔ (¬(rows = cols ∧ rows = m) ∧ r = rows ∧ c = cols ∧ k = m)
          ∧ ∃ fx jacobian, s.Equation x fx jacobian)
    ∧ (∀ r c k, (s.report x).outcome = .error (.failure (.dimensionMismatch r c k))
        ↔ (¬(rows = cols ∧ rows = m) ∧ r = rows ∧ c = cols ∧ k = m)
          ∧ ∃ fx jacobian, s.StepsFrom x 0 x fx ∧ s.HasSlope x fx jacobian)
    ∧ ((∃ f, (s.step x none).outcome = .error (.fault f))
        ↔ (rows = cols ∧ rows = m ∧ m ≠ n)
          ∧ ∃ fx jacobian delta, s.Equation x fx jacobian
            ∧ solveLinear jacobian fx s.config.singularityTolerance = .ok delta)
    ∧ ((∃ f, (s.report x).outcome = .error (.fault f))
        ↔ (rows = cols ∧ rows = m ∧ m ≠ n)
          ∧ ∃ fx jacobian delta, s.StepsFrom x 0 x fx ∧ s.HasSlope x fx jacobian
            ∧ solveLinear jacobian fx s.config.singularityTolerance = .ok delta) := by
  refine ⟨fun k y hy => hy.size_eq.trans hx, fun r c k => ?_, fun r c k => ?_, ?_, ?_⟩
  · rw [step_eq_dimensionMismatch_iff]
    constructor
    · rintro ⟨fx, jacobian, heq, hsolve⟩
      exact ⟨(h.solveLinear_eq_shape_iff hx heq.value heq.slope).mp hsolve, fx, jacobian, heq⟩
    · rintro ⟨hshape, fx, jacobian, heq⟩
      exact ⟨fx, jacobian, heq, (h.solveLinear_eq_shape_iff hx heq.value heq.slope).mpr hshape⟩
  · rw [report_eq_dimensionMismatch_iff]
    constructor
    · rintro ⟨i, y, fy, jacobian, hstep, hslope, hsolve⟩
      have hy : y.size = n := hstep.iterate.size_eq.trans hx
      have hshape := (h.solveLinear_eq_shape_iff hy hstep.value hslope).mp hsolve
      -- an equation that is refused is the first one, since none with its sizes is solved
      have hsizes : ¬(rows = cols ∧ rows = m ∧ m = n) := fun hall => hshape.1 ⟨hall.1, hall.2.1⟩
      obtain ⟨rfl, rfl⟩ := h.eq_of_iterates hx hsizes hstep.iterate
      exact ⟨hshape, fy, jacobian, hstep, hslope⟩
    · rintro ⟨hshape, fx, jacobian, hstep, hslope⟩
      exact ⟨0, x, fx, jacobian, hstep, hslope,
        (h.solveLinear_eq_shape_iff hx hstep.value hslope).mpr hshape⟩
  · exact h.step_fault_iff hx
  · exact h.report_fault_iff hx

/-- The first two coordinates and their product. -/
def withProduct (x : Array α) : Except ShapeFault (Array α) := do
  let a ← coordinate x 0
  let b ← coordinate x 1
  return #[a, b, a * b]

theorem exists_withProduct {x : Array α} (hx : x.size = 2) :
    ∃ fx, withProduct x = .ok fx ∧ fx.size = 3 := by
  have h0 : coordinate x 0 = .ok x[0] := dif_pos (by omega)
  have h1 : coordinate x 1 = .ok x[1] := dif_pos (by omega)
  refine ⟨#[x[0], x[1], x[0] * x[1]], ?_, rfl⟩
  rw [withProduct, h0, h1]
  rfl

/-- Differences give the derivative of `withProduct` three rows and two columns, which is
reported. -/
theorem step_report_shape_withProduct :
    let s : Solver (Array ℚ) ℚ (Jacobian ℚ) :=
      ofFunction withProduct ⟨1 / 10, 5, none, 1, .forward, 0⟩
    s.HasShape 2 3 3 2 ∧ (#[1, 2] : Array ℚ).size = 2
      ∧ (s.step #[1, 2] none).outcome = .error (.failure (.dimensionMismatch 3 2 3))
      ∧ (¬∃ f, (s.step #[1, 2] none).outcome = .error (.fault f))
      ∧ ¬∃ f, (s.report #[1, 2]).outcome = .error (.fault f) := by
  intro s
  have hshape : s.HasShape 2 3 3 2 := ⟨fun _ => exists_withProduct, .differences _⟩
  obtain ⟨-, -, -, hstep, hreport⟩ := step_report_shape s hshape (x := #[1, 2]) rfl
  refine ⟨hshape, rfl, by decide +kernel, ?_, ?_⟩
  · -- a fault would need a square derivative
    rw [hstep]
    rintro ⟨⟨hsquare, -, -⟩, -⟩
    cases hsquare
  · rw [hreport]
    rintro ⟨⟨hsquare, -, -⟩, -⟩
    cases hsquare

/-- With a derivative of three rows and three columns the equation of a step is solved, and the
solution has no place among the points with two coordinates. -/
theorem fault_withProduct :
    let identity : Table Float 3 3 := #v[#v[1, 0, 0], #v[0, 1, 0], #v[0, 0, 1]]
    let s : Solver (Array Float) Float (Jacobian Float) :=
      ⟨withProduct, .function fun _ => .ok ⟨3, 3, identity⟩, Config.standard⟩
    s.HasShape 2 3 3 3 ∧ (#[1, 2] : Array Float).size = 2
      ∧ (s.step #[1, 2] none).outcome = .error (.fault (.lengths 2 3))
      ∧ (s.report #[1, 2]).outcome = .error (.fault (.lengths 2 3)) := by
  intro identity s
  refine ⟨⟨fun _ => exists_withProduct, .function fun _ _ => ⟨identity, rfl⟩⟩, rfl, ?_, ?_⟩
  · decide +kernel
  · decide +kernel

end Solver

end NewtonMethod
