/-
NewtonMethod/Proofs/Sections.lean

The derivative of a function between columns as a table of quotients of numbers.

Whatever the routine, the derivative of `F` at `x` has as many rows as `F(x)` and as
many columns as `x` has coordinates, where either number may be zero.  The entry in
row `i` and column `j` is what the same routine makes of the function of one number
that `F(x)ᵢ` is of the `j`-th coordinate, the section of `F` there.  So it is known
once the section is, and if the section is constant the entry is zero.

All but the last holds in any arithmetic.  For that, the differences and quotients
that should be zero have to be (`ZeroLaws`).  They are in an ordered field
and among the doubles, where the zero may be a negative one: twice the distance may
overflow, but it does not vanish.
-/
import NewtonMethod.Proofs.Double
import NewtonMethod.Proofs.Quotients

namespace NewtonMethod

open Arithmetic

/-! ### Constant functions -/

/-- The quotients of a constant function are zero. -/
class ZeroLaws (α : Type) [Arithmetic α] : Prop where
  sub_self {a : α} : isFinite a = true → a - a = 0
  isZero_zero_div {a : α} : isFinite a = true → isZero a = false → isZero (0 / a) = true
  isZero_zero_div_two_mul {a : α} : isFinite a = true → isZero a = false →
    isZero (0 / (ofNat 2 * a)) = true

instance : ZeroLaws Float where
  sub_self := Double.sub_self
  isZero_zero_div hfin hzero :=
    Double.isZero_zero_div (.inl (Double.exists_parts_eq_finite hzero hfin))
  isZero_zero_div_two_mul hfin hzero := Double.isZero_zero_div (Double.parts_two_mul hzero hfin)

instance {K : Type} [Field K] [LinearOrder K] [ElementaryFunctions K] : ZeroLaws K where
  sub_self _ := sub_self _
  isZero_zero_div _ _ := Exact.isZero_iff.mpr (zero_div _)
  isZero_zero_div_two_mul _ _ := Exact.isZero_iff.mpr (zero_div _)

namespace Differences

variable {α : Type} [Arithmetic α] {m n : ℕ}

theorem Routine.isZero_quotient [ZeroLaws α] (q : Routine) {g : α → α} {x h : α}
    (hconst : ∀ t, g t = g x) (hvalue : isFinite (g x) = true) (hfin : isFinite h = true)
    (hzero : isZero h = false) : isZero (q.quotient g x h) = true := by
  have hrise (t u : α) : g t - g u = 0 := by
    rw [hconst t, hconst u]
    exact ZeroLaws.sub_self hvalue
  cases q with
  | central =>
    rw [quotient, hrise]
    exact ZeroLaws.isZero_zero_div_two_mul hfin hzero
  | forward =>
    rw [quotient, hrise]
    exact ZeroLaws.isZero_zero_div hfin hzero
  | approximate =>
    rw [quotient, hrise]
    exact ZeroLaws.isZero_zero_div hfin hzero

/-! ### The table -/

/-- **A derivative of difference quotients is the table of the quotients of its sections.**  With
each of the routines it has the shape of the function, and its entries are the quotients of the
sections, which the same routine makes of them as well.  An entry is therefore the same for any
other function with that section, and it is zero if the section is constant. -/
theorem exists_table_of_sections (q : Routine) {f : Array α → Except ShapeFault (Array α)}
    {F : Vector α n → Vector α m} (hf : Computes f F) (x : Vector α n) (h : α) :
    ∃ A : Table α m n,
      (q.apply f x.toArray (F x).toArray h).outcome = .ok ⟨m, n, A⟩
      ∧ (∀ i j, A.entry i j = q.quotient (along F x i j) (x.get j) h
          ∧ (q.apply (fun t => .ok (along F x i j t)) (x.get j) ((F x).get i) h).outcome
            = .ok (A.entry i j))
      ∧ (∀ {m' n' : ℕ} {g : Array α → Except ShapeFault (Array α)}
          {G : Vector α n' → Vector α m'} (y : Vector α n') (B : Table α m' n') (i j i' j'),
          Computes g G → (q.apply g y.toArray (G y).toArray h).outcome = .ok ⟨m', n', B⟩ →
          along F x i j = along G y i' j' → x.get j = y.get j' → A.entry i j = B.entry i' j')
      ∧ (ZeroLaws α → ∀ i j, (∀ t, along F x i j t = (F x).get i) →
          isFinite ((F x).get i) = true → isFinite h = true → isZero h = false →
          isZero (A.entry i j) = true) := by
  refine ⟨q.table F x h, q.outcome_columns hf x h, ?_, ?_, ?_⟩
  · intro i j
    refine ⟨q.entry_table F x h i j, ?_⟩
    rw [q.entry_table, ← along_get]
    exact q.outcome_number _ _ _
  · intro m' n' g G y B i j i' j' hg hB hsection hx
    -- the other table is that of its own sections
    have hB' := hB.symm.trans (q.outcome_columns hg y h)
    cases hB'
    rw [q.entry_table, q.entry_table, hsection, hx]
  · intro _ i j hconst hvalue hfin hzero
    rw [q.entry_table]
    rw [← along_get F x i j] at hconst hvalue
    exact q.isZero_quotient hconst hvalue hfin hzero

/-- A function with two arguments and three values. -/
def product (v : Vector Float 2) : Vector Float 3 := #v[v.get 0, v.get 1, v.get 0 * v.get 1]

/-- The central quotients of a product at 2 and 3: the slope of the product along the first argument
is the second one, and the value of the first argument does not depend on the second. -/
theorem exists_table_of_sections_product :
    Computes (ofVectors product) product
      ∧ isFinite (2 : Float) = true ∧ isFinite (0.5 : Float) = true ∧ isZero (0.5 : Float) = false
      ∧ ∃ A : Table Float 3 2,
        (central (ofVectors product) #[2, 3] #[2, 3, 6] 0.5).outcome = .ok ⟨3, 2, A⟩
          ∧ A.entry 2 0 = 3 ∧ isZero (A.entry 0 1) = true := by
  have hproduct : product #v[2, 3] = #v[2, 3, 6] := by decide +kernel
  have hfin : isFinite (2 : Float) = true ∧ isFinite (0.5 : Float) = true := by decide +kernel
  have hzero : isZero (0.5 : Float) = false := by decide +kernel
  obtain ⟨A, hA, hsection, -, hconst⟩ :=
    exists_table_of_sections .central (computes_ofVectors product) #v[2, 3] 0.5
  refine ⟨computes_ofVectors product, hfin.1, hfin.2, hzero, A, ?_, ?_, ?_⟩
  · rw [hproduct] at hA
    exact hA
  · obtain ⟨-, hnumber⟩ := hsection 2 0
    have hslope : (central (fun t => .ok (along product #v[2, 3] 2 0 t)) 2 6 0.5).outcome
        = .ok 3 := by
      decide +kernel
    rw [hproduct] at hnumber
    exact Except.ok.inj (hnumber.symm.trans hslope)
  · exact hconst inferInstance 0 1 (fun t => rfl) hfin.1 hfin.2 hzero

end Differences

end NewtonMethod
