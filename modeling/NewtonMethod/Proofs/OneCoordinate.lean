/-
NewtonMethod/Proofs/OneCoordinate.lean

A number is a list of one number.

Numbers and lists have their own norm, their own derivatives and their own way to
solve a linear equation.  On a list of one number these come to the same,

    norm              |a| · √((a / |a|)²)                  |a|
    derivative        a table with one row and column      a slope
    linear equation   elimination and substitution         a quotient

and not only up to rounding: the laws that are needed (`UnitLaws`) are exact for
doubles.  The quotient is refused for a slope of zero by both, since a tolerance
that is not negative refuses the magnitude of a zero and elimination can leave
alone no other column.

So the map from numbers to lists is a `SpaceMap` (`toColumn`), and every solver
for a function of one number does the same as the one that is made from it for
lists, `Solver.onColumn`: main result `onColumn_agrees`.
-/
import NewtonMethod.Proofs.Double
import NewtonMethod.Proofs.LinearSolve
import NewtonMethod.Proofs.SpaceMap
import NewtonMethod.Space.Scalar

namespace NewtonMethod

open PointSpace

/-! ### The arithmetic of units -/

/-- What is needed of an arithmetic for a list of one number to be computed with as that number. -/
class UnitLaws (α : Type) [Arithmetic α] : Prop where
  abs_of_isZero {a : α} : Arithmetic.isZero a = true → Arithmetic.abs a = 0
  div_abs_mul_self {a : α} : Arithmetic.isZero (Arithmetic.abs a) = false →
    Arithmetic.isFinite (Arithmetic.abs a) = true →
    a / Arithmetic.abs a * (a / Arithmetic.abs a) = 1
  abs_mul_one (a : α) : Arithmetic.abs a * 1 = Arithmetic.abs a
  zero_add_zero : (0 : α) + 0 = 0
  zero_add_one : (0 : α) + 1 = 1
  sqrt_one : Arithmetic.sqrt (1 : α) = 1

instance : UnitLaws Float where
  abs_of_isZero := Double.abs_of_isZero
  div_abs_mul_self hzero hfin := Double.div_abs_mul_self
    (Double.isZero_abs _ ▸ hzero) (Double.isFinite_abs _ ▸ hfin)
  abs_mul_one := Double.abs_mul_one
  zero_add_zero := by decide +kernel
  zero_add_one := by decide +kernel
  sqrt_one := by decide +kernel

namespace OneCoordinate

variable {α : Type} [Arithmetic α]

/-! ### The norm -/

section Norm

variable [UnitLaws α]

/-- The eight lanes have nothing to add to a single square of one. -/
theorem interleavedSum_one : Norm.interleavedSum [(1 : α)] = 1 := by
  show (0 : α) + (0 + 0) + (0 + 0) + (0 + 0) + (0 + 0) + 1 = 1
  simp only [UnitLaws.zero_add_zero, UnitLaws.zero_add_one]

/-- The norm of one coordinate is its magnitude, also if that is zero, infinite or undefined. -/
theorem norm_singleton (a : α) : Column.norm #[a] = Arithmetic.abs a := by
  have hlargest : Norm.largest (#[a] : Array α).toList = Arithmetic.abs a := rfl
  rw [Column.norm, Norm.scaled, hlargest]
  split
  -- a magnitude that is zero or not finite is the norm itself
  next => rfl
  next h =>
    -- the only square is that of a unit
    rw [Bool.or_eq_true, not_or, Bool.not_eq_true, Bool.not_eq_true', Bool.not_eq_false] at h
    obtain ⟨hzero, hfin⟩ := h
    show Arithmetic.abs a * Arithmetic.sqrt
      (Norm.interleavedSum [a / Arithmetic.abs a * (a / Arithmetic.abs a)]) = Arithmetic.abs a
    rw [UnitLaws.div_abs_mul_self hzero hfin, interleavedSum_one, UnitLaws.sqrt_one,
      UnitLaws.abs_mul_one]

end Norm

/-! ### The linear equation -/

omit [Arithmetic α] in
theorem eq_of_get {b c : Vector α 1} (h : b.get 0 = c.get 0) : b = c := by
  ext i hi
  obtain rfl : i = 0 := by omega
  exact h

/-- With a single column there is nothing to exchange and nothing to clear. -/
theorem table_eliminate (f : Factors α 1) (i : Fin 1) : (f.eliminate i).table = f.table := by
  rw [Factors.eliminate]
  split
  next => rfl
  next =>
    -- the row of the pivot is exchanged with itself, and no row is below it
    refine Table.ext fun k j => ?_
    have hnot : ¬i < k := by omega
    rw [Factors.clearBelow, Table.entry_ofFn, if_neg hnot, Table.swapRows, Table.entry_ofFn,
      Subsingleton.elim (Table.exchanged _ _ _) k]

/-- Elimination leaves a table of one entry as it is. -/
theorem table_ofTable (t : Table α 1 1) : (Factors.ofTable t).table = t :=
  table_eliminate ⟨t, []⟩ 0

theorem isSingular_ofTable (t : Table α 1 1) (tolerance : α) :
    (Factors.ofTable t).isSingular tolerance
      = Arithmetic.le (Arithmetic.abs (t.entry 0 0)) tolerance := by
  rw [Factors.isSingular, Factors.pivots, table_ofTable]
  exact Bool.or_false _

omit [Arithmetic α] in
theorem swapEntries_eq (b : Vector α 1) (i p : Fin 1) : Table.swapEntries b i p = b := by
  refine eq_of_get ?_
  show (Vector.ofFn _)[0] = b.get 0
  rw [Vector.getElem_ofFn]
  exact congrArg b.get (Subsingleton.elim _ 0)

omit [Arithmetic α] in
theorem permute_eq (f : Factors α 1) (b : Vector α 1) : f.permute b = b := by
  rw [Factors.permute]
  induction f.swaps generalizing b with
  | nil => rfl
  | cons p l ih =>
    rw [List.foldl_cons]
    dsimp only
    rw [swapEntries_eq]
    exact ih b

theorem forward_eq (t : Table α 1 1) (b : Vector α 1) : Factors.forward t b = b := by
  refine eq_of_get ?_
  show (Vector.ofFn _)[0] = b.get 0
  rw [Vector.getElem_ofFn]
  exact if_neg (by omega)

/-- The back substitution is one division, which needs a divisor other than zero. -/
theorem backward_eq {t : Table α 1 1} (h : Arithmetic.isZero (t.entry 0 0) = false)
    (b : Vector α 1) : Factors.backward t b = some #v[b.get 0 / t.entry 0 0] := by
  show (Factors.backwardStep t b 0 >>= fun c => some c) = some #v[b.get 0 / t.entry 0 0]
  rw [Factors.backwardStep, h]
  refine congrArg some (eq_of_get ?_)
  show (Vector.ofFn _)[0] = b.get 0 / t.entry 0 0
  rw [Vector.getElem_ofFn]
  exact if_pos rfl

/-- One equation for one number is a division. -/
theorem solve_eq [UnitLaws α] (t : Table α 1 1) (b : Vector α 1) {tolerance : α}
    (ht : Config.isNonnegative tolerance = true) :
    Table.solve t b tolerance
      = (Scalar.solve (t.entry 0 0) (b.get 0) tolerance).map fun d => #v[d] := by
  rw [Table.solve, Scalar.solve, isSingular_ofTable]
  rcases hle : Arithmetic.le (Arithmetic.abs (t.entry 0 0)) tolerance with - | -
  · -- a slope that is not refused is not zero
    have hzero : Arithmetic.isZero (t.entry 0 0) = false := by
      refine Bool.eq_false_iff.mpr fun hzero => ?_
      rw [UnitLaws.abs_of_isZero hzero, (Bool.and_eq_true_iff.mp ht).1] at hle
      cases hle
    rw [if_neg Bool.false_ne_true, if_neg Bool.false_ne_true, Factors.solve, permute_eq,
      forward_eq, table_ofTable, backward_eq hzero]
    rfl
  · rfl

/-! ### Numbers as lists -/

/-- The list of one number, and the table of one slope. -/
def toColumn [UnitLaws α] : SpaceMap α (Array α) α α (Jacobian α) 1 where
  point a := #[a]
  slope j := ⟨1, 1, #v[#v[j]]⟩
  dimension_eq _ := rfl
  dimension_point _ := rfl
  norm_point := norm_singleton
  isFinite_point a := by
    show (#[a] : Array α).all Arithmetic.isFinite = Arithmetic.isFinite a
    simp
  perturbed_point a i hi h := by
    obtain rfl : i = 0 := by omega
    rfl
  scaled_point a factor := by
    show (#[a] : Array α).map (· * factor) = #[a * factor]
    simp
  divided_point a divisor := by
    show (#[a] : Array α).map (· / divisor) = #[a / divisor]
    simp
  difference_point a b := by
    show Column.difference #[a] #[b] = .ok #[a - b]
    simp [Column.difference]
  coordinates_point _ := rfl
  assemble_point a columns h := by
    obtain ⟨c, rfl⟩ := List.length_eq_one_iff.mp h
    rfl
  isFiniteDerivative_slope j := by
    show Table.all (#v[#v[j]] : Table α 1 1) Arithmetic.isFinite = Arithmetic.isFinite j
    simp [Table.all]
  solveLinear_slope j b tolerance ht := by
    have hcolumn : Column.solve ⟨1, 1, #v[#v[j]]⟩ #[b] tolerance
        = (Table.solve #v[#v[j]] #v[b] tolerance).map Vector.toArray :=
      solveLinear_toArray #v[#v[j]] #v[b] tolerance
    show Column.solve ⟨1, 1, #v[#v[j]]⟩ #[b] tolerance
      = (Scalar.solve j b tolerance).map fun d => #[d]
    rw [hcolumn, solve_eq _ _ ht]
    show ((Scalar.solve j b tolerance).map _).map _ = _
    rcases Scalar.solve j b tolerance with e | d
    · rfl
    · rfl

end OneCoordinate

/-! ### Functions of one number as functions of lists -/

section OnColumn

variable {α : Type}

/-- A slope as a table with one row and one column; differences are taken all the same. -/
def Derivative.onColumn : Derivative α α α → Derivative (Array α) α (Jacobian α)
  | .differences d => .differences d
  | .function slope => .function fun v => do
    let a ← coordinate v 0
    let j ← slope a
    return ⟨1, 1, #v[#v[j]]⟩

/-- The solver for the function of lists that takes `[a]` to `[f a]`, with the same settings. -/
def Solver.onColumn (s : Solver α α α) : Solver (Array α) α (Jacobian α) where
  function v := do
    let a ← coordinate v 0
    let b ← s.function a
    return #[b]
  derivative := s.derivative.onColumn
  config := s.config

/-- The solver for lists does with `[a]` what the solver for numbers does with `a`. -/
theorem carries_onColumn [Arithmetic α] [UnitLaws α] (s : Solver α α α) :
    OneCoordinate.toColumn.Carries s s.onColumn where
  value a := bind_pure_comp (fun b => #[b]) (s.function a)
  slope := by
    obtain ⟨f, d | slope, config⟩ := s
    · exact .differences d
    · exact .function fun a =>
        bind_pure_comp (fun j => (⟨1, 1, #v[#v[j]]⟩ : Jacobian α)) (slope a)
  config := rfl

/-- **A number is a list of one number.**  For every function of one number, every derivative of it
and all settings, a step, a search with its account and a search without it are the same over
doubles as over lists of one double.  What is the same is the whole run: the journal, with every
evaluation and every event in it, and the outcome, in which a point `y` stands as `[y]`. -/
theorem onColumn_agrees (s : Solver Float Float Float) (x : Float) :
    (∀ fx : Option Float,
      s.onColumn.step #[x] (fx.map fun b => #[b]) = (s.step x fx).map fun y => #[y])
    ∧ s.onColumn.report #[x] = (s.report x).map (Report.map fun y => #[y])
    ∧ s.onColumn.solve #[x] = (s.solve x).map fun y => #[y] := by
  have h := carries_onColumn s
  exact ⟨h.step x, h.report x, h.solve x⟩

end OnColumn

end NewtonMethod
