/-
NewtonMethod/Proofs/PivotTest.lean

With doubles, only the test of the pivots refuses a table.

A system can be refused as singular in two places: where the pivots are compared
with the tolerance, and in the back substitution, which has no quotient for a
pivot of zero (`solveLinear_eq_singular_iff_or`).  The second place looks at
the same diagonal as the first, since substitution reads the factors and does not
change them.  So it is enough that the test finds both zeros, and it does: their
magnitude is zero, which is at most every tolerance that is not negative.

Nothing is said about the entries of the table.  An elimination that overflows
leaves pivots that are infinite or no numbers; such a pivot is not zero, and the
substitution divides by it.
-/
import NewtonMethod.Proofs.Double
import NewtonMethod.Proofs.LinearSolve

namespace NewtonMethod

open Factors PointSpace

variable {n : ℕ} {t : Float}

/-! ### Zeros among the pivots -/

/-- A tolerance that is not negative refuses both zeros. -/
theorem Double.le_abs_of_isZero (ht : Arithmetic.le 0 t = true) {a : Float}
    (ha : Arithmetic.isZero a = true) : Arithmetic.le (Arithmetic.abs a) t = true := by
  rw [Double.abs_of_isZero ha]
  exact ht

/-- Pivots that pass the test are not zero. -/
theorem isZero_eq_false_of_accepted (ht : Arithmetic.le 0 t = true) {f : Factors Float n}
    (h : f.isSingular t = false) (i : Fin n) : Arithmetic.isZero (f.table.entry i i) = false := by
  rw [← Bool.not_eq_true]
  intro hzero
  -- a zero would have been refused, whatever its sign
  have hsingular : f.isSingular t = true :=
    isSingular_iff.mpr ⟨i, Double.le_abs_of_isZero ht hzero⟩
  rw [h] at hsingular
  cases hsingular

/-- With such a tolerance the test is the only reason to refuse a system. -/
theorem solveLinear_eq_singular_iff_isSingular (ht : Arithmetic.le 0 t = true)
    {A : Table Float n n} {b : Vector Float n} :
    solveLinear A b t = .error .singular ↔ (ofTable A).isSingular t = true := by
  rw [solveLinear_eq_singular_iff_or]
  constructor
  · rintro (h | ⟨i, hi⟩)
    · exact h
    · -- the pivot that would stop the substitution has been found before
      exact isSingular_iff.mpr ⟨i, Double.le_abs_of_isZero ht hi⟩
  · exact .inl

theorem solveLinear_eq_ok_of_accepted {A : Table Float n n} {b d : Vector Float n}
    (h : (ofTable A).isSingular t = false) (hd : (ofTable A).solve b = some d) :
    solveLinear A b t = .ok d := by
  show Table.solve A b t = .ok d
  simp [Table.solve, h, hd]

/-! ### The two spaces of lists -/

/-- **Only the test of the pivots refuses a table of doubles.**  Let the tolerance be zero or more.
Whatever the table holds, if the test accepts the pivots, then none of them is zero, the back
substitution gets through any of the columns from any list, and there is an answer for every
right-hand side, in both spaces of lists.  So a system is refused as singular exactly if the
magnitude of some pivot is at most the tolerance. -/
theorem refused_iff_smallPivot (ht : Arithmetic.le 0 t = true) (A : Table Float n n) :
    ((ofTable A).isSingular t = true
        ↔ ∃ p ∈ (ofTable A).pivots, Arithmetic.le (Arithmetic.abs p) t = true)
      ∧ ((ofTable A).isSingular t = false →
        (∀ i, Arithmetic.isZero ((ofTable A).table.entry i i) = false)
          ∧ (∀ (columns : List (Fin n)) (v : Vector Float n), ∃ w,
              columns.foldlM (backwardStep (ofTable A).table) v = some w)
          ∧ ∀ b : Vector Float n, ∃ d, (ofTable A).solve b = some d ∧ solveLinear A b t = .ok d
              ∧ solveLinear (⟨n, n, A⟩ : Jacobian Float) b.toArray t = .ok d.toArray)
      ∧ ∀ b : Vector Float n,
        (solveLinear A b t = .error .singular ↔ (ofTable A).isSingular t = true)
          ∧ (solveLinear (⟨n, n, A⟩ : Jacobian Float) b.toArray t = .error .singular
              ↔ (ofTable A).isSingular t = true) := by
  refine ⟨List.any_eq_true, ?_, ?_⟩
  · intro haccepted
    -- the substitutions change the list only, so they meet these pivots and no others
    have hpivots := isZero_eq_false_of_accepted ht haccepted
    refine ⟨hpivots, exists_foldlM_backwardStep hpivots, ?_⟩
    intro b
    obtain ⟨d, hd⟩ : ∃ d, (ofTable A).solve b = some d := exists_backward_iff.mpr hpivots
    have hsolve : solveLinear A b t = .ok d := solveLinear_eq_ok_of_accepted haccepted hd
    refine ⟨d, hd, hsolve, ?_⟩
    rw [solveLinear_toArray, hsolve]
    rfl
  · intro b
    have hfixed : solveLinear A b t = .error .singular ↔ (ofTable A).isSingular t = true :=
      solveLinear_eq_singular_iff_isSingular ht
    refine ⟨hfixed, ?_⟩
    rw [solveLinear_toArray_eq_singular, hfixed]

/-- A table of finite numbers for which the elimination overflows. -/
def overflowing : Table Float 3 3 :=
  #v[#v[1, 1e308, 1e308], #v[1, -1e308, -1e308], #v[1, -1e308, 2]]

/-- A table whose second pivot is zero. -/
def proportional : Table Float 2 2 := #v[#v[1, 2], #v[2, 4]]

/-- The pivots of `overflowing` are 1, `-∞` and no number; the test accepts them and there is an
answer.  With the tolerance zero the test refuses `proportional`. -/
theorem refused_iff_smallPivot_overflowing :
    let b : Vector Float 3 := #v[1, 2, 3]
    let c : Vector Float 2 := #v[1, 2]
    Arithmetic.le (0 : Float) 1e-30 = true ∧ Arithmetic.le (0 : Float) 0 = true
      ∧ (ofTable overflowing).pivots.map Arithmetic.isFinite = [true, false, false]
      ∧ (ofTable overflowing).isSingular 1e-30 = false
      ∧ (∃ d, solveLinear overflowing b 1e-30 = .ok d)
      ∧ (ofTable proportional).isSingular 0 = true
      ∧ solveLinear proportional c 0 = .error .singular := by
  intro b c
  have ht : Arithmetic.le (0 : Float) 1e-30 = true := by decide +kernel
  have hzero : Arithmetic.le (0 : Float) 0 = true := by decide +kernel
  have hinfinite : (ofTable overflowing).pivots.map Arithmetic.isFinite = [true, false, false] := by
    decide +kernel
  have haccepted : (ofTable overflowing).isSingular 1e-30 = false := by decide +kernel
  have hrefused : (ofTable proportional).isSingular 0 = true := by decide +kernel
  obtain ⟨-, hanswers, -⟩ := refused_iff_smallPivot ht overflowing
  obtain ⟨-, -, hsolved⟩ := hanswers haccepted
  obtain ⟨d, -, hd, -⟩ := hsolved b
  obtain ⟨-, -, hrefusals⟩ := refused_iff_smallPivot hzero proportional
  exact ⟨ht, hzero, hinfinite, haccepted, ⟨d, hd⟩, hrefused, (hrefusals c).1.mpr hrefused⟩

/-- A negative tolerance accepts a pivot of zero, and then the back substitution has no quotient. -/
example : (ofTable (#v[#v[0]] : Table Float 1 1)).isSingular (-1) = false
    ∧ (ofTable (#v[#v[0]] : Table Float 1 1)).solve #v[1] = none := by
  decide +kernel

end NewtonMethod
