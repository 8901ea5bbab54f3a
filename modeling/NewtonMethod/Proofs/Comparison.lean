/-
NewtonMethod/Proofs/Comparison.lean

Comparisons as an order.

The tests `le` and `lt` of an arithmetic need not be an order, since there may be
values that compare with nothing, not even with themselves.  What a search relies
on is that the other values, those with `le a a`, are put in a line; this is a
`LawfulComparison`.

An ordered field has no other values.  Among the doubles `nan` is the only one:
the rest are compared by their parts,

    -∞  <  - m · 2^e  <  ±0  <  m · 2^e  <  ∞

a larger exponent counting before a larger mantissa.  `Double.rank` maps the parts
into a linear order in which this is the order (`Double.compare_eq`).
-/
import NewtonMethod.Proofs.Double
import NewtonMethod.Proofs.Exact

namespace NewtonMethod

open Arithmetic

/-- The comparisons put all values in a line that compare with themselves. -/
class LawfulComparison (α : Type) [Arithmetic α] : Prop where
  le_self_of_le {a b : α} : le a b = true → le a a = true ∧ le b b = true
  le_trans {a b c : α} : le a b = true → le b c = true → le a c = true
  lt_of_not_le {a b : α} : le a a = true → le b b = true → le a b = false → lt b a = true

namespace LawfulComparison

variable {α : Type} [Arithmetic α] [LawfulComparison α] {a b c : α}

/-- Of two values that are at most a third one, the first is at most the second or it is larger. -/
theorem lt_of_le_of_not_le (ha : le a c = true) (hb : le b c = true) (hab : le a b = false) :
    lt b a = true :=
  lt_of_not_le (le_self_of_le ha).1 (le_self_of_le hb).1 hab

/-- What is not at most `c` is not at most anything below `c`. -/
theorem not_le_of_le (hbc : le b c = true) (hac : le a c = false) : le a b = false := by
  rw [← Bool.not_eq_true] at hac ⊢
  exact fun hab => hac (le_trans hab hbc)

end LawfulComparison

instance {K : Type} [Field K] [LinearOrder K] [ElementaryFunctions K] : LawfulComparison K where
  le_self_of_le _ := ⟨Exact.le_iff.mpr le_rfl, Exact.le_iff.mpr le_rfl⟩
  le_trans hab hbc := Exact.le_iff.mpr ((Exact.le_iff.mp hab).trans (Exact.le_iff.mp hbc))
  lt_of_not_le _ _ hab := by
    rw [← Bool.not_eq_true, Exact.le_iff] at hab
    exact Exact.lt_iff.mpr (not_le.mp hab)

/-! ### Doubles -/

namespace Double

open Float.Model Float.Model.UnpackedFloat

/-- The place of a value in the order of the doubles: its sign, or that it is infinite, then the
exponent and then the mantissa. -/
def rank : UnpackedFloat → ℤ ×ₗ ℤ ×ₗ ℤ
  | .infinity .negative => toLex (-2, toLex (0, 0))
  | .finite .negative m e _ => toLex (-1, toLex (-e, -m))
  | .finite .positive m e _ => toLex (1, toLex (e, m))
  | .infinity .positive => toLex (2, toLex (0, 0))
  | _ => toLex (0, toLex (0, 0))

/-- Pairs are compared by their second parts if the first ones are equal. -/
theorem compare_toLex {β : Type} [LinearOrder β] (a b : ℤ) (x y : β) :
    compare (toLex (a, x)) (toLex (b, y)) = (compare a b).then (compare x y) := by
  rw [Prod.Lex.compare_def]
  rfl

/-- Among negative numbers the order is reversed. -/
theorem compare_neg (a b : ℤ) : compare (-a) (-b) = (compare a b).swap := by
  rw [← cmp_eq_compare, ← cmp_eq_compare, cmp_swap]
  exact StrictAnti.cmp_map_eq (fun _ _ => neg_lt_neg) a b

theorem compare_cast (a b : ℕ) : compare (a : ℤ) (b : ℤ) = compare a b := by
  rw [← cmp_eq_compare, ← cmp_eq_compare]
  exact Nat.strictMono_cast.cmp_map_eq a b

/-- Two values that are numbers compare as their places do. -/
theorem compare_eq {u v : UnpackedFloat} (hu : u ≠ .notANumber) (hv : v ≠ .notANumber) :
    u.compare v = some (compare (rank u) (rank v)) := by
  rcases u with (_ | _) | _ | _ | ⟨_ | _, m, e, _⟩ <;>
    rcases v with (_ | _) | _ | _ | ⟨_ | _, m', e', _⟩
  -- two finite values of one sign are the cases in which there is more to compare than that
  case finite.positive.finite.positive =>
    simp only [rank, compare_toLex, compare_cast]
    rfl
  case finite.negative.finite.negative =>
    simp only [rank, compare_toLex, compare_neg e e', compare_neg, compare_cast]
    rw [UnpackedFloat.compare, Ordering.swap_then]
    rfl
  all_goals first | exact absurd rfl hu | exact absurd rfl hv | rfl

/-- A test of how two values compare succeeds only if both are numbers. -/
theorem any_compare_iff {u v : UnpackedFloat} {p : Ordering → Bool} :
    (u.compare v).any p = true ↔ u ≠ .notANumber ∧ v ≠ .notANumber
      ∧ p (compare (rank u) (rank v)) = true := by
  constructor
  · intro h
    have hu : u ≠ .notANumber := by
      rintro rfl
      cases h
    have hv : v ≠ .notANumber := by
      rintro rfl
      rcases u with (_ | _) | _ | _ | ⟨_ | _, _, _, _⟩ <;> cases h
    -- what is no number compares with nothing, so both are numbers
    rw [compare_eq hu hv] at h
    exact ⟨hu, hv, h⟩
  · rintro ⟨hu, hv, h⟩
    rw [compare_eq hu hv]
    exact h

/-- Two doubles are compared by their places, if both are numbers. -/
theorem le_iff {a b : Float} :
    le a b = true ↔ parts a ≠ .notANumber ∧ parts b ≠ .notANumber
      ∧ rank (parts a) ≤ rank (parts b) := by
  have hle : le a b = ((parts a).compare (parts b)).any fun o => o.isLE := by
    show decide (decide ((parts a).le (parts b) = true) = true) = _
    rw [Bool.decide_eq_true, Bool.decide_eq_true]
    rfl
  rw [hle, any_compare_iff, Ordering.isLE_iff_ne_gt, ← ne_eq, compare_le_iff_le]

theorem lt_iff {a b : Float} :
    lt a b = true ↔ parts a ≠ .notANumber ∧ parts b ≠ .notANumber
      ∧ rank (parts a) < rank (parts b) := by
  have hlt : lt a b = ((parts a).compare (parts b)).any fun o => o == .lt := by
    show decide (decide ((parts a).lt (parts b) = true) = true) = _
    rw [Bool.decide_eq_true, Bool.decide_eq_true, UnpackedFloat.lt]
    rcases (parts a).compare (parts b) with - | o <;> rfl
  rw [hlt, any_compare_iff, beq_iff_eq, compare_lt_iff_lt]

end Double

instance : LawfulComparison Float where
  le_self_of_le h := by
    obtain ⟨ha, hb, -⟩ := Double.le_iff.mp h
    exact ⟨Double.le_iff.mpr ⟨ha, ha, le_rfl⟩, Double.le_iff.mpr ⟨hb, hb, le_rfl⟩⟩
  le_trans hab hbc := by
    obtain ⟨ha, -, hab⟩ := Double.le_iff.mp hab
    obtain ⟨-, hc, hbc⟩ := Double.le_iff.mp hbc
    exact Double.le_iff.mpr ⟨ha, hc, hab.trans hbc⟩
  lt_of_not_le ha hb hab := by
    obtain ⟨ha, -, -⟩ := Double.le_iff.mp ha
    obtain ⟨hb, -, -⟩ := Double.le_iff.mp hb
    refine Double.lt_iff.mpr ⟨hb, ha, not_le.mp fun h => ?_⟩
    rw [Double.le_iff.mpr ⟨ha, hb, h⟩] at hab
    cases hab

end NewtonMethod
