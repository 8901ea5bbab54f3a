/-
NewtonMethod/Proofs/FixedLength.lean

Lists of a fixed length among the lists of any length.

Both spaces compute the same values from the same coordinates, with two
differences.  The squares of a norm are added in another order, which is of no
account if nothing is rounded (`scaled_shortSum`).  And where sizes agree by
type in the one space, the other compares them; they agree there as well, since
every list that a search comes to is as long as its start.

So forgetting the length is a `SpaceMap` (`forgetLength`), whatever the length
is, and a solver does the same over the lists of that length as over all lists:
main result `unfixed_agrees`.
-/
import NewtonMethod.Proofs.Coordinates
import NewtonMethod.Proofs.SpaceMap

namespace NewtonMethod

open PointSpace

/-! ### Forgetting the length -/

section Exact

variable {K : Type} [Field K] [LinearOrder K] [ElementaryFunctions K] {n : ℕ}

/-- The order of addition makes no difference to a norm. -/
theorem Norm.scaled_shortSum (xs : List K) : scaled shortSum xs = scaled interleavedSum xs := by
  have hsum : (shortSum : List K → K) = interleavedSum := by
    funext ps
    rw [shortSum_eq, interleavedSum_eq]
  rw [hsum]

omit [Field K] [LinearOrder K] [ElementaryFunctions K] in
/-- The table that is assembled from columns of a fixed length. -/
theorem Column.assemble_toArray (x : Vector K n) {columns : List (Vector K n)}
    (h : columns.length = n) :
    Column.assemble x.toArray.size (columns.map Vector.toArray)
      = (Fixed.assemble columns).map fun A => ⟨n, n, A⟩ := by
  have hrows : ∀ column ∈ columns.map Vector.toArray, x.toArray.size ≤ column.size := by
    intro column hcolumn
    obtain ⟨y, -, rfl⟩ := List.mem_map.mp hcolumn
    rw [x.size_toArray, y.size_toArray]
  rw [Column.assemble, dif_pos hrows, Fixed.assemble, dif_pos h.ge]
  refine congrArg Except.ok (Jacobian.eq_of_entry x.size_toArray (by simpa using h) fun i j => ?_)
  rw [Table.entry_ofFn, Table.entry_ofFn]
  simp

/-- A list of a fixed length as a list, and a square table as a table of some shape. -/
def forgetLength : SpaceMap (Vector K n) (Array K) K (Table K n n) (Jacobian K) n where
  point := Vector.toArray
  slope A := ⟨n, n, A⟩
  dimension_eq _ := rfl
  dimension_point x := x.size_toArray
  norm_point x := (Norm.scaled_shortSum x.toList).symm
  isFinite_point _ := rfl
  perturbed_point x i _ h := Column.perturbed_toArray x i h
  scaled_point _ _ := rfl
  divided_point _ _ := rfl
  difference_point := Column.difference_toArray
  coordinates_point _ := rfl
  assemble_point x _ h := Column.assemble_toArray x h
  isFiniteDerivative_slope _ := rfl
  solveLinear_slope A b tolerance _ := solveLinear_toArray A b tolerance

end Exact

/-! ### Functions of lists of a fixed length as functions of lists -/

variable {α : Type} {n : ℕ}

/-- A list that has to have length `n`. -/
def withLength (n : ℕ) (v : Array α) : Except ShapeFault (Vector α n) :=
  if h : v.size = n then .ok ⟨v, h⟩ else .error (.lengths n v.size)

theorem withLength_toArray (x : Vector α n) : withLength n x.toArray = .ok x :=
  dif_pos x.size_toArray

/-- A slope at lists of length `n` as one at lists of any length; differences are taken all the
same. -/
def Derivative.unfixed :
    Derivative (Vector α n) α (Table α n n) → Derivative (Array α) α (Jacobian α)
  | .differences d => .differences d
  | .function slope => .function fun v => do
    let x ← withLength n v
    let A ← slope x
    return ⟨n, n, A⟩

/-- The solver for the same function of lists of length `n`, as a function of lists, with the same
settings. -/
def Solver.unfixed (s : Solver (Vector α n) α (Table α n n)) :
    Solver (Array α) α (Jacobian α) where
  function v := do
    let x ← withLength n v
    let y ← s.function x
    return y.toArray
  derivative := s.derivative.unfixed
  config := s.config

variable {K : Type} [Field K] [LinearOrder K] [ElementaryFunctions K]

theorem carries_unfixed (s : Solver (Vector K n) K (Table K n n)) :
    forgetLength.Carries s s.unfixed where
  value x := by
    show (withLength n x.toArray >>= fun x => s.function x >>= fun y => .ok y.toArray)
      = (s.function x).map Vector.toArray
    rw [withLength_toArray]
    exact bind_pure_comp Vector.toArray (s.function x)
  slope := by
    obtain ⟨f, d | slope, config⟩ := s
    · exact .differences d
    · refine .function fun x => ?_
      show (withLength n x.toArray >>= fun x => slope x >>= fun A => .ok (⟨n, n, A⟩ : Jacobian K))
        = (slope x).map fun A => ⟨n, n, A⟩
      rw [withLength_toArray]
      exact bind_pure_comp (fun A => (⟨n, n, A⟩ : Jacobian K)) (slope x)
  config := rfl

/-- **The length can be forgotten.**  In exact arithmetic, with any square root, for every length,
every function between lists of that length, every derivative of it and all settings, a step, a
search with its account and a search without it are the same over the lists of that length as over
all lists: the same journal, and the same outcome with the same numbers in it. -/
theorem unfixed_agrees (s : Solver (Vector K n) K (Table K n n)) (x : Vector K n) :
    (∀ fx : Option (Vector K n),
      s.unfixed.step x.toArray (fx.map Vector.toArray) = (s.step x fx).map Vector.toArray)
    ∧ s.unfixed.report x.toArray = (s.report x).map (Report.map Vector.toArray)
    ∧ s.unfixed.solve x.toArray = (s.solve x).map Vector.toArray := by
  have h := carries_unfixed s
  exact ⟨h.step x, h.report x, h.solve x⟩

end NewtonMethod
