/-
NewtonMethod/Proofs/SpaceMap.lean

Searches over two kinds of points that stand for each other.

A `SpaceMap` takes points to points and derivatives to derivatives in such a way
that it commutes with every operation of the two spaces.  If a solver over the
one space is carried to a solver over the other (`SpaceMap.Carries`), so is all
that it does:

    t.report (M.point x) = (s.report x).map (Report.map M.point)

and likewise for `step` and `solve`.  These are equations between runs, where
`Run.map` changes the value of a run and nothing else.  They say that both end
alike, with the same numbers in a report or in an error, and also that both keep
the same journal, so that they evaluate the function and the derivative equally
often and announce the same events.

Nothing is assumed of the function: it may fail, and so may the slope.  The law of
the linear solve is asked for tolerances that are not negative only, which a
search has made sure of before it comes to its first step.
-/
import NewtonMethod.Proofs.Iterates

namespace NewtonMethod

open Run PointSpace

/-! ### Images of runs -/

namespace Run

variable {α β γ δ : Type}

/-- The same run, with the image of its value. -/
def map (f : β → γ) (r : Run α β) : Run α γ := ⟨r.journal, r.outcome.map f⟩

/-- The image of a run is the functorial one: nothing is added to the journal. -/
theorem map_eq_map (f : β → γ) (r : Run α β) : f <$> r = r.map f := by
  rw [← bind_pure_comp, map]
  -- mapping adds the empty journal of a pure run
  rcases h : r.outcome with stop | b
  · rw [bind_of_error h]
    rfl
  · rw [bind_of_ok h]
    show Run.mk (r.journal ++ []) _ = _
    rw [List.append_nil]
    rfl

theorem ofExcept_map (f : β → γ) (e : Except ShapeFault β) :
    (ofExcept (e.map f) : Run α γ) = f <$> ofExcept e := by
  rcases e with fault | b <;> rfl

/-- An evaluation of the image is recorded as the evaluation is. -/
theorem evaluate_map {X Y : Type} (record : Entry α) {f : X → Except ShapeFault β}
    {g : Y → Except ShapeFault γ} {x : X} {y : Y} {φ : β → γ} (h : g y = (f x).map φ) :
    evaluate record g y = φ <$> evaluate record f x := by
  rw [evaluate, evaluate, h, ofExcept_map, map_bind]

/-- Two continuations need to agree on the value of a run only. -/
theorem bind_congr_of_ok {r : Run α β} {k l : β → Run α γ}
    (h : ∀ b, r.outcome = .ok b → k b = l b) : r >>= k = r >>= l := by
  rcases hrun : r.outcome with stop | b
  · rw [bind_of_error hrun, bind_of_error hrun]
  · rw [bind_of_ok hrun, bind_of_ok hrun, h b hrun]

/-- If the second part of a run is carried over wherever it starts, so is the whole. -/
theorem bind_map_congr {ε : Type} {r : Run α β} {φ : β → γ} {ψ : δ → ε} {k : β → Run α δ}
    {l : γ → Run α ε} (h : ∀ b, l (φ b) = ψ <$> k b) : φ <$> r >>= l = ψ <$> (r >>= k) := by
  rw [bind_map_left, map_bind]
  exact bind_congr h

/-- Runs for a list are carried over if each of them is. -/
theorem mapM_map {f : β → Run α γ} {g : β → Run α δ} {φ : γ → δ} {l : List β}
    (h : ∀ b ∈ l, g b = φ <$> f b) : l.mapM g = List.map φ <$> l.mapM f := by
  induction l with
  | nil => rfl
  | cons b l ih =>
    obtain ⟨hb, hl⟩ := List.forall_mem_cons.mp h
    rw [List.mapM_cons, List.mapM_cons, hb, ih hl]
    -- the first value and the values of the rest are images each
    exact bind_map_congr fun c => bind_map_congr fun cs => rfl

/-- Runs for a list that succeed give one value for each entry. -/
theorem length_of_mapM {f : β → Run α γ} {l : List β} {cs : List γ}
    (h : (l.mapM f).outcome = .ok cs) : cs.length = l.length := by
  induction l generalizing cs with
  | nil =>
    obtain rfl : [] = cs := Except.ok.inj h
    rfl
  | cons b l ih =>
    rw [List.mapM_cons] at h
    obtain ⟨c, -, h⟩ := bind_eq_ok_iff.mp h
    obtain ⟨ds, hds, h⟩ := bind_eq_ok_iff.mp h
    obtain rfl : c :: ds = cs := Except.ok.inj h
    exact congrArg (· + 1) (ih hds)

end Run

/-- What a search needs to know of an acceptable configuration to solve its linear equations. -/
theorem isNonnegative_of_validate {α : Type} [Arithmetic α] {c : Config α}
    (h : c.validate = .ok ()) : Config.isNonnegative c.singularityTolerance = true := by
  rw [Config.validate] at h
  split at h
  next => cases h
  next =>
    split at h
    next => cases h
    next =>
      split at h
      next => cases h
      next =>
        split at h
        next => cases h
        next hbad => simpa using hbad

/-- The same account of another root. -/
def Report.map {X Y α : Type} (φ : X → Y) (found : Report X α) : Report Y α :=
  ⟨φ found.root, found.iterations, found.residualNorm⟩

/-! ### Maps between spaces -/

/-- A map of points with `n` coordinates, and one of derivatives, that commute with what a search
does with them. -/
structure SpaceMap (X Y α J K : Type) [Arithmetic α] [PointSpace X α J] [PointSpace Y α K]
    (n : ℕ) where
  /-- The image of a point. -/
  point : X → Y
  /-- The image of a derivative. -/
  slope : J → K
  dimension_eq (x : X) : dimension x = n
  dimension_point (x : X) : dimension (point x) = n
  norm_point (x : X) : norm (point x) = norm x
  isFinite_point (x : X) : isFinite (point x) = isFinite x
  perturbed_point (x : X) {i : ℕ} (hi : i < n) (h : α) :
    perturbed (point x) i h = (perturbed x i h).map point
  scaled_point (x : X) (a : α) : scaled (point x) a = point (scaled x a)
  divided_point (x : X) (a : α) : divided (point x) a = point (divided x a)
  difference_point (x y : X) : difference (point x) (point y) = (difference x y).map point
  coordinates_point (x : X) : coordinates (point x) = coordinates x
  assemble_point (x : X) {columns : List X} (h : columns.length = n) :
    assemble (point x) (columns.map point) = (assemble x columns).map slope
  isFiniteDerivative_slope (j : J) :
    isFiniteDerivative Y (slope j) = isFiniteDerivative X j
  solveLinear_slope (j : J) (b : X) {tolerance : α} (ht : Config.isNonnegative tolerance = true) :
    solveLinear (slope j) (point b) tolerance = (solveLinear j b tolerance).map point

namespace SpaceMap

variable {X Y α J K : Type} [Arithmetic α] [PointSpace X α J] [PointSpace Y α K] {n : ℕ}

/-- Two derivatives take the same differences, or the one has the images of the values of the
other. -/
inductive CarriesDerivative (M : SpaceMap X Y α J K n) : Derivative X α J → Derivative Y α K → Prop
  | differences (d : Differences α) : CarriesDerivative M (.differences d) (.differences d)
  | function {f : X → Except ShapeFault J} {g : Y → Except ShapeFault K}
      (value : ∀ x, g (M.point x) = (f x).map M.slope) :
      CarriesDerivative M (.function f) (.function g)

/-- The solver `t` does with the image of a point what `s` does with the point. -/
structure Carries (M : SpaceMap X Y α J K n) (s : Solver X α J) (t : Solver Y α K) : Prop where
  value : ∀ x, t.function (M.point x) = (s.function x).map M.point
  slope : M.CarriesDerivative s.derivative t.derivative
  config : t.config = s.config

/-! ### Derivatives -/

section Derivative

open Differences

variable (M : SpaceMap X Y α J K n) {f : X → Except ShapeFault X} {g : Y → Except ShapeFault Y}
  (hvalue : ∀ x, g (M.point x) = (f x).map M.point)

/-- The difference quotient of two images is the image of the quotient. -/
theorem quotient_point (ahead behind : X) (a : α) :
    (do
      let rise ← (ofExcept (difference (M.point ahead) (M.point behind)) : Run α Y)
      return divided rise a)
      = M.point <$> (do
          let rise ← (ofExcept (difference ahead behind) : Run α X)
          return divided rise a) := by
  rw [M.difference_point, ofExcept_map]
  refine bind_map_congr fun rise => ?_
  rw [M.divided_point, map_pure]

include hvalue

theorem sample_point (x : X) {i : ℕ} (hi : i < n) (h : α) :
    sample g (M.point x) i h = M.point <$> sample f x i h := by
  rw [sample, sample, M.perturbed_point x hi, ofExcept_map]
  exact bind_map_congr fun moved => evaluate_map _ (hvalue moved)

theorem forwardColumn_point (x fx : X) (h : α) {i : ℕ} (hi : i < n) :
    forwardColumn g (M.point x) (M.point fx) h i = M.point <$> forwardColumn f x fx h i := by
  rw [forwardColumn, forwardColumn, M.sample_point hvalue x hi]
  exact bind_map_congr fun ahead => M.quotient_point ahead fx h

theorem centralColumn_point (x : X) (h : α) {i : ℕ} (hi : i < n) :
    centralColumn g (M.point x) h i = M.point <$> centralColumn f x h i := by
  rw [centralColumn, centralColumn, M.sample_point hvalue x hi]
  refine bind_map_congr fun ahead => ?_
  rw [M.sample_point hvalue x hi]
  exact bind_map_congr fun behind => M.quotient_point ahead behind _

omit hvalue in
/-- A table is carried over if its columns are. -/
theorem tabulate_point {x fx : X} {column : ℕ → Run α X} {column' : ℕ → Run α Y}
    (h : ∀ i < n, column' i = M.point <$> column i) :
    (tabulate (M.point x) (M.point fx) column' : Run α K)
      = M.slope <$> (tabulate x fx column : Run α J) := by
  have hcolumns : (List.range (dimension (M.point x))).mapM column'
      = List.map M.point <$> (List.range (dimension x)).mapM column := by
    rw [M.dimension_point, M.dimension_eq]
    exact mapM_map fun i hi => h i (List.mem_range.mp hi)
  rw [tabulate, tabulate, hcolumns, bind_map_left, map_bind]
  refine bind_congr_of_ok fun columns hvalues => ?_
  -- the law of assembly asks for a column for each coordinate
  have hlength : columns.length = n := by
    rw [length_of_mapM hvalues, List.length_range, M.dimension_eq]
  rw [M.assemble_point fx hlength, ofExcept_map]

/-- The derivative is carried over, be it given or taken by differences. -/
theorem at_point {d : Derivative X α J} {d' : Derivative Y α K} (hd : M.CarriesDerivative d d')
    (x fx : X) : d'.at g (M.point x) (M.point fx) = M.slope <$> d.at f x fx := by
  cases hd with
  | differences d =>
    have hquotient : (d.derivative g (M.point x) (M.point fx) : Run α K)
        = M.slope <$> (d.derivative f x fx : Run α J) := by
      obtain ⟨h, _ | _⟩ := d
      · exact M.tabulate_point fun i hi => M.forwardColumn_point hvalue x fx h hi
      · exact M.tabulate_point fun i hi => M.centralColumn_point hvalue x h hi
    show (note .request >>= fun _ => d.derivative g (M.point x) (M.point fx))
      = M.slope <$> (note .request >>= fun _ => d.derivative f x fx)
    rw [map_bind, hquotient]
  | @function slope slope' hslope =>
    show (note .request >>= fun _ => evaluate .slope slope' (M.point x))
      = M.slope <$> (note .request >>= fun _ => evaluate .slope slope x)
    rw [map_bind, evaluate_map .slope (hslope x)]

end Derivative

/-! ### Steps -/

namespace Carries

open Solver

variable {M : SpaceMap X Y α J K n} {s : Solver X α J} {t : Solver Y α K} (h : M.Carries s t)

include h

theorem derivativeAt (i : ℕ) (x fx : X) :
    t.derivativeAt i (M.point x) (M.point fx) = M.slope <$> s.derivativeAt i x fx := by
  rw [Solver.derivativeAt, Solver.derivativeAt, M.at_point h.value h.slope]
  refine bind_map_congr fun jacobian => ?_
  rw [M.isFiniteDerivative_slope, M.coordinates_point]
  split
  next => rfl
  next => rfl

/-- The linear solve is carried over, with a singular derivative or a shape that does not fit. -/
theorem solution (ht : Config.isNonnegative s.config.singularityTolerance = true) (i : ℕ)
    (x fx : X) (jacobian : J) :
    t.solution i (M.point x) (M.point fx) (M.slope jacobian)
      = M.point <$> s.solution i x fx jacobian := by
  rw [Solver.solution, Solver.solution, h.config, M.solveLinear_slope jacobian fx ht,
    M.coordinates_point]
  rcases solveLinear jacobian fx s.config.singularityTolerance with (_ | _) | delta
  · rfl
  · rfl
  · rfl

/-- The bound on the step depends on its length only, which the map keeps. -/
theorem clamp (delta : X) : t.clamp (M.point delta) = M.point <$> s.clamp delta := by
  rw [Solver.clamp, Solver.clamp, h.config]
  rcases s.config.maxRadius with - | radius
  · rfl
  · dsimp only
    rw [M.norm_point]
    split
    next =>
      rw [M.scaled_point]
      rfl
    next => rfl

omit h in
theorem move (i : ℕ) (x delta : X) :
    (Solver.move i (M.point x) (M.point delta) : Run α Y)
      = M.point <$> (Solver.move i x delta : Run α X) := by
  rw [Solver.move, Solver.move, M.difference_point, ofExcept_map]
  refine bind_map_congr fun next => ?_
  rw [M.isFinite_point, M.isFinite_point, M.norm_point, M.coordinates_point]
  split
  next => rfl
  next => rfl

theorem advance (ht : Config.isNonnegative s.config.singularityTolerance = true) (i : ℕ)
    (x fx : X) : t.advance i (M.point x) (M.point fx) = M.point <$> s.advance i x fx := by
  rw [Solver.advance, Solver.advance, h.derivativeAt]
  refine bind_map_congr fun jacobian => ?_
  rw [h.solution ht]
  refine bind_map_congr fun delta => ?_
  rw [h.clamp]
  exact bind_map_congr fun clamped => move i x clamped

theorem checkStart (x : X) : t.checkStart (M.point x) = s.checkStart x := by
  rw [Solver.checkStart, Solver.checkStart, h.config, M.isFinite_point, M.coordinates_point]

omit h in
theorem checkResidual (x fx : X) (announced : Option ℕ) (i : ℕ) :
    (Solver.checkResidual (M.point x) (M.point fx) announced i : Run α Unit)
      = Solver.checkResidual x fx announced i := by
  rw [Solver.checkResidual, Solver.checkResidual, M.isFinite_point, M.coordinates_point]

/-- One step is carried over. -/
theorem step (x : X) (fx : Option X) :
    t.step (M.point x) (fx.map M.point) = (s.step x fx).map M.point := by
  rw [← map_eq_map, Solver.step, Solver.step, h.checkStart, map_bind]
  refine bind_congr_of_ok fun _ hstart => ?_
  have ht := isNonnegative_of_validate (checkStart_eq_ok_iff.mp hstart).1
  -- what is left once the value is there, given or computed
  have hrest : ∀ fx : X,
      (Solver.checkResidual (M.point x) (M.point fx) none 0 >>= fun _ =>
          t.advance 0 (M.point x) (M.point fx))
        = M.point <$> (Solver.checkResidual x fx none 0 >>= fun _ => s.advance 0 x fx) := by
    intro fx
    rw [checkResidual, map_bind]
    exact bind_congr fun _ => h.advance ht 0 x fx
  -- without a given value the function is evaluated first
  rcases fx with - | fx
  · show (evaluate .residual t.function (M.point x) >>= _)
      = M.point <$> (evaluate .residual s.function x >>= _)
    rw [evaluate_map .residual (h.value x)]
    exact bind_map_congr hrest
  · exact hrest fx

/-! ### Searches -/

/-- The test of an iterate sees the same norm in both spaces. -/
theorem test (i : ℕ) (x : X) :
    t.test i (M.point x) = Prod.map M.point id <$> s.test i x := by
  rw [Solver.test, Solver.test, evaluate_map .residual (h.value x)]
  refine bind_map_congr fun fx => ?_
  rw [checkResidual, map_bind, M.norm_point]
  rfl

theorem exhausted (r : α) (x : X) :
    t.exhausted r (M.point x) = Report.map M.point <$> s.exhausted r x := by
  rw [Solver.exhausted, Solver.exhausted, h.config, M.coordinates_point]
  rfl

/-- An iterate is tested and, if it is not accepted, handed on; it is enough that what follows is
carried over. -/
theorem turn (i : ℕ) (x : X) {next : X → α → Run α (Report X α)}
    {next' : Y → α → Run α (Report Y α)}
    (hnext : ∀ fx r, next' (M.point fx) r = Report.map M.point <$> next fx r) :
    t.turn i (M.point x) next' = Report.map M.point <$> s.turn i x next := by
  rw [Solver.turn, Solver.turn, h.test, h.config]
  refine bind_map_congr fun tested => ?_
  obtain ⟨fx, r⟩ := tested
  dsimp only [Prod.map, id]
  split
  next => rfl
  next => exact hnext fx r

/-- The induction is on the budget that is left. -/
theorem search (ht : Config.isNonnegative s.config.singularityTolerance = true) (m i : ℕ) (x : X) :
    t.search m i (M.point x) = Report.map M.point <$> s.search m i x := by
  induction m generalizing i x with
  | zero =>
    rw [search_zero, search_zero]
    exact h.turn i x fun _ r => h.exhausted r x
  | succ m ih =>
    rw [search_succ, search_succ]
    refine h.turn i x fun fx _ => ?_
    -- the rest of the search starts from the image of the next iterate
    rw [h.advance ht]
    exact bind_map_congr fun y => ih (i + 1) y

/-- A search is carried over. -/
theorem report (x : X) : t.report (M.point x) = (s.report x).map (Report.map M.point) := by
  rw [← map_eq_map, Solver.report, Solver.report, h.checkStart, map_bind, h.config]
  -- behind the check of the start the tolerances are known to be acceptable
  refine bind_congr_of_ok fun _ hstart => ?_
  have ht := isNonnegative_of_validate (checkStart_eq_ok_iff.mp hstart).1
  rcases s.config.maxIterations with - | m
  · exact h.exhausted _ x
  · exact h.search ht m 0 x

theorem solve (x : X) : t.solve (M.point x) = (s.solve x).map M.point := by
  rw [← map_eq_map, Solver.solve, Solver.solve, h.report, ← map_eq_map]
  exact bind_map_congr fun found => rfl

end Carries

end SpaceMap

end NewtonMethod
