/-
NewtonMethod/Proofs/LinearCommand.lean

The command for linear systems has no trouble with sizes.

Its three texts may be anything.  They are read and compared before anything is
solved, and what passes is a system of `n` equations in `n` unknowns with a start
of `n` coordinates (`LinearProblem.HasSize`).  There is no system without
equations, since every text has a piece and every piece has to be a number.

A solver whose function takes lists of length `n` to lists of length `n`, and
whose derivative is a square table of that size, never leaves these sizes: each
operation of a step has a result of the right length (`Solver.KeepsLength`), and
a search from a list of length `n` ends neither with a fault nor with a report of
sizes that do not match.  This says nothing about the numbers, which may be
infinite or none.
-/
import NewtonMethod.Proofs.MatrixText
import NewtonMethod.Proofs.Shapes
import NewtonMethod.CommandLine.Commands

namespace NewtonMethod

open PointSpace

/-! ### Solvers of one size -/

section OneSize

variable {α : Type} [Arithmetic α]

/-- Every operation of a step has a result of the same size `n` if what it is given has that
size. -/
structure Solver.KeepsLength (s : Solver (Array α) α (Jacobian α)) (n : ℕ) : Prop where
  value : ∀ x : Array α, x.size = n → ∃ fx, s.function x = .ok fx ∧ fx.size = n
  slope : ∀ x fx : Array α, x.size = n → fx.size = n →
    ∃ t : Table α n n, (s.derivative.at s.function x fx).outcome = .ok ⟨n, n, t⟩
  solution : ∀ (t : Table α n n) (fx : Array α), fx.size = n →
    Column.solve ⟨n, n, t⟩ fx s.config.singularityTolerance = .error .singular
      ∨ ∃ delta, Column.solve ⟨n, n, t⟩ fx s.config.singularityTolerance = .ok delta
          ∧ delta.size = n
  update : ∀ x delta : Array α, x.size = n → delta.size = n →
    ∃ y, Column.difference x (s.clamped delta) = .ok y ∧ y.size = n

namespace Solver.HasShape

variable {s : Solver (Array α) α (Jacobian α)} {n : ℕ} {x : Array α} (h : s.HasShape n n n n)

include h

/-- A solver between lists of one length has all results of that length, except that a singular
table is refused. -/
theorem keepsLength : s.KeepsLength n := by
  refine ⟨h.value, fun x fx hx hfx => h.exists_at hx hfx, fun t fx hfx => ?_, ?_⟩
  · rcases hsolve : Column.solve ⟨n, n, t⟩ fx s.config.singularityTolerance with e | delta
    · cases e with
      | singular => exact .inl rfl
      | shape r c k => exact absurd ⟨rfl, hfx.symm⟩ (Column.solve_eq_shape_iff.mp hsolve).1
    · exact .inr ⟨delta, rfl, (Column.sizes_of_solve hsolve).2.2.trans hfx⟩
  · intro x delta hx hdelta
    have hsize : x.size = (s.clamped delta).size := by rw [size_clamped, hx, hdelta]
    have hy : Column.difference x (s.clamped delta) = .ok (x.zipWith (· - ·) (s.clamped delta)) :=
      Column.difference_eq_ok_iff.mpr ⟨hsize, rfl⟩
    exact ⟨_, hy, (Column.size_of_difference hy).trans hx⟩

/-- No operation of such a search meets lists of different lengths. -/
theorem report_ne_fault (hx : x.size = n) (f : ShapeFault) :
    (s.report x).outcome ≠ .error (.fault f) := by
  intro hf
  obtain ⟨⟨-, -, hne⟩, -⟩ := (h.report_fault_iff hx).mp ⟨f, hf⟩
  exact hne rfl

theorem report_ne_dimensionMismatch (hx : x.size = n) (r c k : ℕ) :
    (s.report x).outcome ≠ .error (.failure (.dimensionMismatch r c k)) := by
  intro hreport
  obtain ⟨_, y, fy, jacobian, hstep, hslope, hsolve⟩ := report_eq_dimensionMismatch_iff.mp hreport
  have hy : y.size = n := hstep.iterate.size_eq.trans hx
  obtain ⟨hne, -⟩ := (h.solveLinear_eq_shape_iff hy hstep.value hslope).mp hsolve
  exact hne ⟨rfl, rfl⟩

end Solver.HasShape

/-- An affine function takes lists as long as its table has columns to lists as long as that has
rows. -/
theorem Affine.exists_evaluate {f : Affine α} (hrhs : f.rhs.size = f.matrix.rows) {x : Array α}
    (hx : x.size = f.matrix.cols) : ∃ fx, f.evaluate x = .ok fx ∧ fx.size = f.matrix.rows := by
  have hproduct : product f.matrix x = .ok (f.matrix.table.times ⟨x, hx⟩).toArray := dif_pos hx
  have hsize : (f.matrix.table.times ⟨x, hx⟩).toArray.size = f.matrix.rows := Vector.size_toArray _
  have hdifference := Column.difference_eq_ok_iff.mpr ⟨hsize.trans hrhs.symm, rfl⟩
  refine ⟨_, ?_, (Column.size_of_difference hdifference).trans hsize⟩
  rw [evaluate, hproduct]
  exact hdifference

end OneSize

/-! ### The problem that the texts describe -/

namespace Command

/-- There are `n` equations in `n` unknowns, and `n` is not zero. -/
structure LinearProblem.HasSize (problem : LinearProblem) (n : ℕ) : Prop where
  pos : 1 ≤ n
  rows : problem.system.matrix.rows = n
  cols : problem.system.matrix.cols = n
  rhs : problem.system.rhs.size = n
  start : problem.start.size = n

/-- Problems with parts that do not match are refused. -/
theorem LinearProblem.exists_hasSize {matrix rhs : String} {start : Option String}
    {problem : LinearProblem} (h : ofTexts matrix rhs start = .ok problem) :
    ∃ n, problem.HasSize n := by
  obtain ⟨a, ha, h⟩ := bind_eq_ok_iff.mp h
  obtain ⟨b, -, h⟩ := bind_eq_ok_iff.mp h
  dsimp only at h
  split at h
  next => cases h
  next hsquare =>
    -- the start is read or zero, and then compared with the right-hand side
    obtain ⟨x, h⟩ : ∃ x : List Float, (if x.length ≠ b.length then
          .error (ArgumentFault.initialGuess x.length b.length)
        else Except.ok ⟨⟨a, b.toArray⟩, x.toArray⟩) = .ok problem := by
      rcases start with - | text
      · exact ⟨List.replicate b.length 0, h⟩
      · obtain ⟨x, -, h⟩ := bind_eq_ok_iff.mp h
        exact ⟨x, h⟩
    split at h
    next => cases h
    next hstart =>
      obtain rfl := Except.ok.inj h
      -- a text has a piece at least, so a table that is read has a row
      have hpos : 1 ≤ a.rows := (MatrixText.readMatrix_eq_ok_iff.mp ha).pos.1
      refine ⟨a.rows, hpos, rfl, ?_, ?_, ?_⟩
      · show a.cols = a.rows
        omega
      · show b.length = a.rows
        omega
      · show x.length = a.rows
        omega

theorem LinearProblem.HasSize.hasShape {problem : LinearProblem} {n : ℕ} (h : problem.HasSize n)
    (c : Config Float) : (Solver.ofFunction problem.system.evaluate c).HasShape n n n n := by
  refine ⟨fun x hx => ?_, .differences _⟩
  obtain ⟨fx, hfx, hsize⟩ :=
    Affine.exists_evaluate (h.rhs.trans h.rows.symm) (hx.trans h.cols.symm)
  exact ⟨fx, hfx, hsize.trans h.rows⟩

/-! ### The command -/

/-- **The command for linear systems meets no sizes that do not match.**  Whatever its texts are,
either it refuses them before anything is solved, or they are a system of `n` equations in `n`
unknowns with `1 ≤ n` and a start of that size, and the solver runs on it.  Then every operation of
a step keeps to this size, as do the iterates, the search ends neither with a fault nor with sizes
that do not match, and the command does not fail for one of these reasons. -/
theorem runLinear_keepsLength (matrix rhs : String) (start : Option String) (c : Config Float) :
    (∃ fault, LinearProblem.ofTexts matrix rhs start = .error fault
        ∧ runLinear matrix rhs start c = ⟨[], some (.argument fault)⟩)
      ∨ ∃ n problem s before, LinearProblem.ofTexts matrix rhs start = .ok problem
        ∧ problem.HasSize n ∧ s = Solver.ofFunction problem.system.evaluate c
        ∧ runLinear matrix rhs start c = searched before (s.report problem.start)
        ∧ s.KeepsLength n
        ∧ (∀ k x, s.Iterates problem.start k x → x.size = n)
        ∧ (∀ f, (s.report problem.start).outcome ≠ .error (.fault f))
        ∧ (∀ rows cols entries, (s.report problem.start).outcome
            ≠ .error (.failure (.dimensionMismatch rows cols entries)))
        ∧ (∀ f, (runLinear matrix rhs start c).failure ≠ some (.shape f))
        ∧ ∀ rows cols entries, (runLinear matrix rhs start c).failure
            ≠ some (.solver (.dimensionMismatch rows cols entries)) := by
  rcases h : LinearProblem.ofTexts matrix rhs start with fault | problem
  · refine .inl ⟨fault, rfl, ?_⟩
    rw [runLinear, h]
  · obtain ⟨n, hsize⟩ := LinearProblem.exists_hasSize h
    have hshape := hsize.hasShape c
    have hfault := hshape.report_ne_fault hsize.start
    have hmismatch := hshape.report_ne_dimensionMismatch hsize.start
    -- what is printed before the search does not matter
    obtain ⟨before, hrun⟩ : ∃ before, runLinear matrix rhs start c = searched before
        ((Solver.ofFunction problem.system.evaluate c).report problem.start) := by
      rw [runLinear, h]
      exact ⟨_, rfl⟩
    refine .inr ⟨n, problem, _, before, rfl, hsize, rfl, hrun, hshape.keepsLength,
      fun k x hx => hx.size_eq.trans hsize.start, hfault, hmismatch, fun f hf => ?_,
      fun rows cols entries hf => ?_⟩
    · rw [hrun] at hf
      exact hfault f (failure_searched_eq_shape_iff.mp hf)
    · rw [hrun] at hf
      exact hmismatch rows cols entries (failure_searched_eq_solver_iff.mp hf)

end Command

end NewtonMethod
