/-
NewtonMethod/Proofs/Rounding.lean

What rounding makes of a magnitude.

An operation on doubles hands over a mantissa, an exponent and two bits for what
follows the mantissa: whether the next bit is set, and whether any bit after that is.
These tell the place of the exact result `x` in units of the exponent, `v = x / 2ᵉ`, up
to where it matters (`Reads`), and shifting to the right keeps them right.  So the
mantissa that is rounded in the end is the integer nearest to `v`, the even one of two
(`IsNearest`).  The exponent is the smallest one for which it has 53 bits, but not less
than -1074.  This is `RoundsTo x k t`: the magnitude `x` is rounded to `k · 2ᵗ`.

Three things follow of it.  With 53 bits and exponents from -1074 on, however large,

    no such number is closer to `x`                      (`RoundsTo.abs_sub_le`)
    it is zero exactly if `x ≤ 2⁻¹⁰⁷⁵`                   (`RoundsTo.eq_zero_iff`)
    it is below `2¹⁰²⁴` exactly if `x < 2¹⁰²⁴ - 2⁹⁷⁰`    (`RoundsTo.lt_iff`)

and if it is not below `2¹⁰²⁴`, it is stored as an infinity.
-/
import Mathlib
import NewtonMethod.Proofs.Double
import NewtonMethod.Proofs.EuclideanNorm

namespace NewtonMethod.Double

open Float.Model (Format UnpackedFloat totalExponent)
open Float.Model.UnpackedFloat (Accuracy ExtendedMantissa Sign roundWithAccuracy
  shiftToTargetExponent shiftToExponent)

/-! ### The nearest integer -/

/-- `k` is the integer nearest to `v`, and the even one if there are two. -/
structure IsNearest (v : ℝ) (k : ℕ) : Prop where
  abs_sub_le_half : |k - v| ≤ 1 / 2
  even_of_half : |k - v| = 1 / 2 → Even k

section Nearest

variable {v : ℝ} {k : ℕ} (h : IsNearest v k)

include h

theorem IsNearest.le_add_half : k ≤ v + 1 / 2 := by
  have := (abs_le.mp h.abs_sub_le_half).2
  linarith

theorem IsNearest.sub_half_le : v - 1 / 2 ≤ k := by
  have := (abs_le.mp h.abs_sub_le_half).1
  linarith

/-- No integer is closer than the nearest one. -/
theorem IsNearest.abs_sub_le_abs_sub (j : ℕ) : |k - v| ≤ |j - v| := by
  rcases eq_or_ne j k with rfl | hne
  · exact le_rfl
  · -- another integer is further away than half a unit
    have hone : (1 : ℝ) ≤ |(j : ℝ) - k| := by
      have hne' : (j : ℤ) - k ≠ 0 := sub_ne_zero.mpr (Nat.cast_injective.ne hne)
      exact_mod_cast Int.one_le_abs hne'
    have htriangle : |(j : ℝ) - k| ≤ |j - v| + |k - v| := by
      rw [← abs_neg (k - v), neg_sub]
      exact (congrArg abs (sub_add_sub_cancel (j : ℝ) v k).symm).trans_le (abs_add_le _ _)
    linarith [h.abs_sub_le_half]

/-- Half a unit above an even integer is rounded down. -/
theorem IsNearest.le_iff_of_even {j : ℕ} (hj : Even j) : k ≤ j ↔ v ≤ j + 1 / 2 := by
  constructor
  · intro hle
    have hle' : (k : ℝ) ≤ j := Nat.cast_le.mpr hle
    linarith [h.sub_half_le]
  · intro hle
    have hnext : k ≤ j + 1 := by
      have : (k : ℝ) ≤ (j + 1 : ℕ) := by
        push_cast
        linarith [h.le_add_half]
      exact Nat.cast_le.mp this
    refine Nat.le_of_lt_succ (lt_of_le_of_ne hnext ?_)
    rintro rfl
    -- the next integer is as near, and it is not even
    have hhalf := h.le_add_half
    push_cast at hhalf
    have htie : ((j + 1 : ℕ) : ℝ) = v + 1 / 2 := by
      push_cast
      linarith
    have heven := h.even_of_half (by rw [htie, add_sub_cancel_left, abs_of_pos one_half_pos])
    exact Nat.not_even_iff_odd.mpr hj.add_one heven

/-- Half a unit above an odd integer is rounded up. -/
theorem IsNearest.le_iff_of_odd {j : ℕ} (hj : Odd j) : k ≤ j ↔ v < j + 1 / 2 := by
  constructor
  · intro hle
    have hle' : (k : ℝ) ≤ j := Nat.cast_le.mpr hle
    have hhalf := h.sub_half_le
    refine lt_of_le_of_ne (by linarith) fun htie => ?_
    obtain rfl : k = j := by
      have : (j : ℝ) ≤ k := by linarith
      exact le_antisymm hle (Nat.cast_le.mp this)
    have heven := h.even_of_half (by
      rw [htie, sub_add_cancel_left, abs_neg, abs_of_pos one_half_pos])
    exact Nat.not_even_iff_odd.mpr hj heven
  · intro hlt
    have : (k : ℝ) < (j + 1 : ℕ) := by
      push_cast
      linarith [h.le_add_half]
    exact Nat.le_of_lt_succ (Nat.cast_lt.mp this)

end Nearest

/-! ### Residual bits -/

/-- The mantissa and the two bits tell where `v` is: the mantissa is its integer part, and the bits
compare the rest with one half. -/
inductive Reads : ExtendedMantissa → ℝ → Prop
  | exact (m : ℕ) : Reads ⟨m, false, false⟩ m
  | below {m : ℕ} {v : ℝ} : m < v → v < m + 1 / 2 → Reads ⟨m, false, true⟩ v
  | half (m : ℕ) : Reads ⟨m, true, false⟩ (m + 1 / 2)
  | above {m : ℕ} {v : ℝ} : m + 1 / 2 < v → v < m + 1 → Reads ⟨m, true, true⟩ v

namespace Reads

variable {em : ExtendedMantissa} {v : ℝ}

/-- The mantissa is the integer part from below. -/
theorem mantissa_le (h : Reads em v) : em.mantissa ≤ v := by
  cases h with
  | exact m => exact le_rfl
  | below hlt _ => exact hlt.le
  | half m => exact le_add_of_nonneg_right one_half_pos.le
  | above hlt _ => exact (lt_add_of_pos_right _ one_half_pos).le.trans hlt.le

/-- The mantissa is the integer part from above. -/
theorem lt_mantissa_add_one (h : Reads em v) : v < em.mantissa + 1 := by
  cases h with
  | exact m => exact lt_add_one _
  | below _ hlt => exact hlt.trans (add_lt_add_right one_half_lt_one _)
  | half m => exact add_lt_add_right one_half_lt_one _
  | above _ hlt => exact hlt

/-- Rounding by the two bits finds the nearest integer, and the even one in the middle. -/
theorem isNearest (h : Reads em v) : IsNearest v em.roundedMantissa := by
  cases h with
  | exact m =>
    show IsNearest m m
    have habs : |(m : ℝ) - m| < 1 / 2 := by simp
    exact ⟨habs.le, fun htie => absurd htie habs.ne⟩
  | @below m v hlo hhi =>
    show IsNearest v m
    have habs : |m - v| < 1 / 2 := abs_lt.mpr ⟨by linarith, by linarith⟩
    exact ⟨habs.le, fun htie => absurd htie habs.ne⟩
  | half m =>
    -- between two integers the even one is taken
    show IsNearest (m + 1 / 2) (m + m % 2 : ℕ)
    rcases Nat.mod_two_eq_zero_or_one m with heven | hodd
    · rw [heven, add_zero]
      refine ⟨?_, fun _ => Nat.even_iff.mpr heven⟩
      rw [sub_add_cancel_left, abs_neg, abs_of_pos one_half_pos]
    · rw [hodd]
      refine ⟨?_, fun _ => (Nat.odd_iff.mpr hodd).add_one⟩
      push_cast
      rw [add_sub_add_left_eq_sub, abs_le]
      constructor <;> norm_num
  | @above m v hlo hhi =>
    show IsNearest v (m + 1 : ℕ)
    have habs : |((m + 1 : ℕ) : ℝ) - v| < 1 / 2 := by
      push_cast
      exact abs_lt.mpr ⟨by linarith, by linarith⟩
    exact ⟨habs.le, fun htie => absurd htie habs.ne⟩

/-- The bit that is shifted out of an even mantissa is not set. -/
theorem shiftRightOne_even (q : ℕ) (r b : Bool) :
    ExtendedMantissa.shiftRightOne ⟨2 * q, r, b⟩ = ⟨q, false, r || b⟩ := by
  simp [ExtendedMantissa.shiftRightOne]

/-- The bit that is shifted out of an odd mantissa is set, and the bit before it becomes part of the
rest. -/
theorem shiftRightOne_odd (q : ℕ) (r b : Bool) :
    ExtendedMantissa.shiftRightOne ⟨2 * q + 1, r, b⟩ = ⟨q, true, r || b⟩ := by
  have hdiv : (2 * q + 1) / 2 = q := by omega
  simp [ExtendedMantissa.shiftRightOne, hdiv]

/-- Shifting the mantissa by one halves what is read. -/
theorem shiftRightOne (h : Reads em v) : Reads em.shiftRightOne (v / 2) := by
  cases h with
  | exact m =>
    obtain ⟨q, rfl | rfl⟩ := Nat.even_or_odd' m
    · rw [shiftRightOne_even, show ((2 * q : ℕ) : ℝ) / 2 = q by push_cast; ring]
      exact .exact q
    · rw [shiftRightOne_odd, show ((2 * q + 1 : ℕ) : ℝ) / 2 = q + 1 / 2 by push_cast; ring]
      exact .half q
  | @below m v hlo hhi =>
    obtain ⟨q, rfl | rfl⟩ := Nat.even_or_odd' m <;> push_cast at hlo hhi
    · rw [shiftRightOne_even]
      exact .below (by linarith) (by linarith)
    · rw [shiftRightOne_odd]
      exact .above (by linarith) (by linarith)
  | half m =>
    obtain ⟨q, rfl | rfl⟩ := Nat.even_or_odd' m <;> push_cast
    · rw [shiftRightOne_even]
      exact .below (by linarith) (by linarith)
    · rw [shiftRightOne_odd]
      exact .above (by linarith) (by linarith)
  | @above m v hlo hhi =>
    obtain ⟨q, rfl | rfl⟩ := Nat.even_or_odd' m <;> push_cast at hlo hhi
    · rw [shiftRightOne_even]
      exact .below (by linarith) (by linarith)
    · rw [shiftRightOne_odd]
      exact .above (by linarith) (by linarith)

/-- Shifting by `n` divides what is read by `2ⁿ`. -/
theorem shiftRight (h : Reads em v) (n : ℕ) : Reads (em >>> n) (v / 2 ^ n) := by
  show Reads (n.repeat ExtendedMantissa.shiftRightOne em) _
  induction n with
  | zero =>
    rw [pow_zero, div_one]
    exact h
  | succ n ih =>
    rw [Nat.repeat, pow_succ, ← div_div]
    exact ih.shiftRightOne

end Reads

/-! ### What a magnitude is rounded to -/

/-- The magnitude `x` is rounded to `k · 2ᵗ`: with the smallest exponent for which it has 53 bits,
but not less than -1074. -/
structure RoundsTo (x : ℝ) (k : ℕ) (t : ℤ) : Prop where
  le_exponent : -1074 ≤ t
  isNearest : IsNearest (x / 2 ^ t) k
  lt : x / 2 ^ t < 2 ^ 53
  normal_or : 2 ^ 52 ≤ x / 2 ^ t ∨ t = -1074

/-- A number that 53 bits and an exponent from -1074 on are enough for, be it too large to be stored
or not. -/
structure Representable (g : ℝ) : Prop where
  exists_parts : ∃ (m : ℕ) (e : ℤ), m < 2 ^ 53 ∧ -1074 ≤ e ∧ g = m * 2 ^ e

/-- A magnitude from here on is rounded to one that is too large to be stored. -/
noncomputable def overflowBound : ℝ := (2 ^ (1024 : ℤ) - 2 ^ (970 : ℤ) : ℚ)

theorem two_zpow_pos (t : ℤ) : (0 : ℝ) < 2 ^ t := zpow_pos two_pos t

theorem two_zpow_le_two_zpow {s t : ℤ} (h : s ≤ t) : (2 : ℝ) ^ s ≤ 2 ^ t :=
  zpow_le_zpow_right₀ one_le_two h

/-- The bound of the exponents, with the largest exponent of a 53-bit mantissa set apart. -/
theorem two_zpow_max : (2 : ℝ) ^ (1024 : ℤ) = 2 ^ 53 * 2 ^ (971 : ℤ) := by
  rw [← zpow_natCast, ← zpow_add₀ two_ne_zero]
  rfl

theorem overflowBound_eq_sub : overflowBound = 2 ^ (1024 : ℤ) - 2 ^ (970 : ℤ) := by
  rw [overflowBound, Rat.cast_sub, Rat.cast_zpow, Rat.cast_zpow, Rat.cast_ofNat]

/-- The bound is half a unit above the largest number that can be stored. -/
theorem overflowBound_eq : overflowBound = (2 ^ 53 - 1 / 2) * 2 ^ (971 : ℤ) := by
  have hhalf : (2 : ℝ) ^ (970 : ℤ) = 1 / 2 * 2 ^ (971 : ℤ) := by
    rw [show (970 : ℤ) = -1 + 971 by rfl, zpow_add₀ two_ne_zero, zpow_neg_one, one_div]
  rw [overflowBound_eq_sub, two_zpow_max, hhalf, sub_mul]

theorem overflowBound_le : overflowBound ≤ 2 ^ (1024 : ℤ) := by
  rw [overflowBound_eq_sub]
  exact sub_le_self _ (two_zpow_pos 970).le

section Representable

variable {g : ℝ} {n j k : ℕ}

/-- Integers up to `2⁵³` are representable. -/
theorem representable_natCast (hn : n ≤ 2 ^ 53) : Representable n := by
  rcases hn.lt_or_eq with hlt | rfl
  · exact ⟨n, 0, hlt, by decide, by simp⟩
  · exact ⟨1, 53, by decide, by decide, by norm_num⟩

theorem representable_two_pow (k : ℕ) : Representable (2 ^ k) :=
  ⟨1, k, by decide, by omega, by simp⟩

theorem representable_one : Representable 1 := ⟨1, 0, by decide, by decide, by simp⟩

/-- Scaling up by a power of two keeps the mantissa. -/
theorem Representable.mul_two_pow (hg : Representable g) (k : ℕ) : Representable (g * 2 ^ k) := by
  obtain ⟨m, e, hm, he, rfl⟩ := hg
  refine ⟨m, e + k, hm, by omega, ?_⟩
  rw [zpow_add₀ two_ne_zero, zpow_natCast, mul_assoc]

theorem two_pow_lt_overflowBound (hk : k ≤ 1023) : (2 : ℝ) ^ k < overflowBound := by
  have hk' : (2 : ℝ) ^ k ≤ 2 ^ 52 * 2 ^ (971 : ℤ) := by
    rw [← zpow_natCast, ← zpow_natCast, ← zpow_add₀ two_ne_zero]
    exact two_zpow_le_two_zpow (by omega)
  rw [overflowBound_eq]
  exact hk'.trans_lt (mul_lt_mul_of_pos_right (by norm_num) (two_zpow_pos 971))

theorem one_lt_overflowBound : 1 < overflowBound := by
  rw [← pow_zero 2]
  exact two_pow_lt_overflowBound (Nat.zero_le _)

/-- Above `2⁵⁴` the numbers that can be stored are at least four apart. -/
theorem Representable.add_four_le (hg : Representable g) (hj : 54 ≤ j) (h : 2 ^ j < g) :
    2 ^ j + 4 ≤ g := by
  obtain ⟨m, e, hm, -, rfl⟩ := hg
  have he : 2 ≤ e := by
    by_contra hlt
    have hsmall : m * (2 : ℝ) ^ e ≤ 2 ^ 53 * 2 ^ (1 : ℤ) :=
      mul_le_mul (by exact_mod_cast hm.le) (two_zpow_le_two_zpow (by omega)) (two_zpow_pos e).le
        (by positivity)
    have hlarge : (2 : ℝ) ^ 54 ≤ 2 ^ j := pow_le_pow_right₀ one_le_two hj
    norm_num at hsmall hlarge
    linarith
  -- with that exponent both sides are multiples of four, and the integers in front differ by one at
  -- least
  obtain ⟨i, rfl⟩ : ∃ i : ℕ, e = (i + 2 : ℕ) := ⟨(e - 2).toNat, by omega⟩
  obtain ⟨l, rfl⟩ : ∃ l : ℕ, j = l + 2 := ⟨j - 2, by omega⟩
  rw [zpow_natCast, pow_add, pow_add, ← mul_assoc] at h ⊢
  have hlt : 2 ^ l < m * 2 ^ i := by
    have : (2 : ℝ) ^ l < m * 2 ^ i := lt_of_mul_lt_mul_right h (by norm_num)
    exact_mod_cast this
  have hle : (2 : ℝ) ^ l + 1 ≤ m * 2 ^ i := by exact_mod_cast hlt
  linarith

end Representable

namespace RoundsTo

variable {x : ℝ} {k : ℕ} {t : ℤ} (h : RoundsTo x k t)

include h

/-- Rounding can carry the mantissa up to `2⁵³`, but not beyond. -/
theorem le_two_pow : k ≤ 2 ^ 53 := by
  have hlt : (k : ℝ) < (2 ^ 53 + 1 : ℕ) := by
    push_cast
    linarith [h.isNearest.le_add_half, h.lt]
  exact Nat.le_of_lt_succ (Nat.cast_lt.mp hlt)

/-- A rounded mantissa has 53 bits too, unless the exponent is the smallest. -/
theorem le_mantissa_or : 2 ^ 52 ≤ k ∨ t = -1074 := by
  refine h.normal_or.imp_left fun hnormal => ?_
  have hlt : (2 : ℝ) ^ 52 < k + 1 := by linarith [h.isNearest.sub_half_le]
  have hlt' : 2 ^ 52 < k + 1 := by exact_mod_cast hlt
  exact Nat.le_of_lt_succ hlt'

/-- What is at most half the smallest number is rounded to zero. -/
theorem eq_zero_iff : k = 0 ↔ x ≤ 2 ^ (-1075 : ℤ) := by
  have hunit : (2 : ℝ) ^ (-1075 : ℤ) = 1 / 2 * 2 ^ (-1074 : ℤ) := by
    rw [show (-1075 : ℤ) = -1 + -1074 by rfl, zpow_add₀ two_ne_zero, zpow_neg_one, one_div]
  have hhalf : k = 0 ↔ x / 2 ^ t ≤ 1 / 2 := by
    rw [← Nat.le_zero, h.isNearest.le_iff_of_even Even.zero, Nat.cast_zero, zero_add]
  rw [hhalf]
  rcases eq_or_ne t (-1074) with rfl | hne
  · rw [div_le_iff₀ (two_zpow_pos _), hunit]
  · -- with a larger exponent there are 53 bits
    have hnormal := h.normal_or.resolve_right hne
    have hx := (le_div_iff₀ (two_zpow_pos t)).mp hnormal
    have hunit' := two_zpow_le_two_zpow h.le_exponent
    have hpos := two_zpow_pos (-1074)
    exact iff_of_false (by linarith) (by linarith)

/-- Half a unit more than the largest mantissa with an exponent `M` is rounded up, since that
mantissa is odd. -/
theorem lt_scale_iff {M : ℤ} (hM : -1074 < M) :
    k * (2 : ℝ) ^ t < 2 ^ 53 * 2 ^ M ↔ x < (2 ^ 53 - 1 / 2) * 2 ^ M := by
  have hpos := two_zpow_pos M
  rcases lt_trichotomy t M with hlt | rfl | hgt
  · -- with a smaller exponent both are far below
    have hunit : 2 * (2 : ℝ) ^ t ≤ 2 ^ M := by
      rw [← zpow_one_add₀ two_ne_zero]
      exact two_zpow_le_two_zpow (by omega)
    have hk : (k : ℝ) ≤ 2 ^ 53 := by exact_mod_cast h.le_two_pow
    have hkt := mul_le_mul_of_nonneg_right hk (two_zpow_pos t).le
    have hx := (div_lt_iff₀ (two_zpow_pos t)).mp h.lt
    exact iff_of_true (by linarith) (by linarith)
  · have hle : k < 2 ^ 53 ↔ x / 2 ^ t < (2 ^ 53 - 1 : ℕ) + 1 / 2 := by
      rw [← h.isNearest.le_iff_of_odd (by decide)]
      omega
    have hcast : ((2 ^ 53 - 1 : ℕ) : ℝ) + 1 / 2 = 2 ^ 53 - 1 / 2 := by
      rw [Nat.cast_sub (by decide)]
      norm_num
    rw [mul_lt_mul_iff_left₀ hpos, ← div_lt_iff₀ hpos, ← hcast, ← hle]
    norm_cast
  · -- with a larger exponent both are beyond
    have hnormal : 2 ^ 52 ≤ x / 2 ^ t := h.normal_or.resolve_right fun hmin => by omega
    have hunit : 2 * (2 : ℝ) ^ M ≤ 2 ^ t := by
      rw [← zpow_one_add₀ two_ne_zero]
      exact two_zpow_le_two_zpow (by omega)
    have hk : (2 : ℝ) ^ 52 ≤ k := by
      exact_mod_cast h.le_mantissa_or.resolve_right fun hmin => by omega
    have hkt := mul_le_mul_of_nonneg_right hk (two_zpow_pos t).le
    have hx := (le_div_iff₀ (two_zpow_pos t)).mp hnormal
    exact iff_of_false (by linarith) (by linarith)

/-- Rounding stays below `2¹⁰²⁴` exactly below the bound. -/
theorem lt_iff : k * (2 : ℝ) ^ t < 2 ^ (1024 : ℤ) ↔ x < overflowBound := by
  rw [two_zpow_max, overflowBound_eq]
  exact h.lt_scale_iff (by decide)

omit h in
theorem abs_sub_eq (j : ℕ) : |j * (2 : ℝ) ^ t - x| = |j - x / 2 ^ t| * 2 ^ t := by
  rw [← abs_of_pos (two_zpow_pos t), ← abs_mul, sub_mul, abs_of_pos (two_zpow_pos t),
    div_mul_cancel₀ x (two_zpow_pos t).ne']

/-- Nothing that could be stored is closer. -/
theorem abs_sub_le {g : ℝ} (hg : Representable g) : |k * (2 : ℝ) ^ t - x| ≤ |g - x| := by
  -- a multiple of `2ᵗ` is as close as `g`
  obtain ⟨j, hj⟩ : ∃ j : ℕ, |j * (2 : ℝ) ^ t - x| ≤ |g - x| := by
    obtain ⟨m, e, hm, he, rfl⟩ := hg
    rcases le_or_gt t e with hle | hlt
    · refine ⟨m * 2 ^ (e - t).toNat, le_of_eq ?_⟩
      have hexponent : e = (e - t).toNat + t := by omega
      push_cast
      conv_rhs => rw [hexponent, zpow_add₀ two_ne_zero, zpow_natCast, ← mul_assoc]
    · -- `g` is below the normal numbers with that exponent
      have hnormal : 2 ^ 52 ≤ x / 2 ^ t := h.normal_or.resolve_right fun hmin => by omega
      have hx := (le_div_iff₀ (two_zpow_pos t)).mp hnormal
      have hg : m * (2 : ℝ) ^ e ≤ 2 ^ 52 * 2 ^ t := by
        have hm' : (m : ℝ) ≤ 2 ^ 53 := by exact_mod_cast hm.le
        have hunit : 2 * (2 : ℝ) ^ e ≤ 2 ^ t := by
          rw [← zpow_one_add₀ two_ne_zero]
          exact two_zpow_le_two_zpow (by omega)
        calc m * (2 : ℝ) ^ e ≤ 2 ^ 53 * 2 ^ e := mul_le_mul_of_nonneg_right hm' (two_zpow_pos e).le
          _ = 2 ^ 52 * (2 * 2 ^ e) := by ring
          _ ≤ 2 ^ 52 * 2 ^ t := mul_le_mul_of_nonneg_left hunit (by positivity)
      refine ⟨2 ^ 52, ?_⟩
      push_cast
      rw [abs_of_nonpos (by linarith), abs_of_nonpos (by linarith)]
      linarith
  -- and among the multiples of `2ᵗ` the nearest integer is the best
  refine le_trans ?_ hj
  rw [abs_sub_eq, abs_sub_eq]
  exact mul_le_mul_of_nonneg_right (h.isNearest.abs_sub_le_abs_sub j) (two_zpow_pos t).le

end RoundsTo

/-! ### Rounding -/

section Rounding

variable {s : Sign} {m : ℕ} {e : ℤ}

/-- The parts of a value with the sign `s` and the magnitude `k · 2ᵗ`. -/
inductive HasValue (s : Sign) (k : ℕ) (t : ℤ) : UnpackedFloat → Prop
  | zero : k = 0 → HasValue s k t (.zero s)
  | finite {m : ℕ} {e : ℤ} {hm : 0 < m} : Rounded m e → m * (2 : ℝ) ^ e = k * 2 ^ t →
    HasValue s k t (.finite s m e hm)

theorem shift_zero (t : ℤ) :
    (shiftToTargetExponent Format.binary64 0 t .exact).1.mantissa = 0 := by
  have hrepeat := repeat_shiftRightOne 0
  simp only [zero_mul] at hrepeat
  show (Nat.repeat ExtendedMantissa.shiftRightOne _ ⟨0, false, false⟩).mantissa = 0
  rw [hrepeat]

/-- A mantissa that rounding has made one bit longer is shifted once more. -/
theorem hasValue_shifted {k : ℕ} {t : ℤ} (hk : k ≤ 2 ^ 53) (ht : -1074 ≤ t)
    (hnormal : 2 ^ 52 ≤ k ∨ t = -1074) :
    HasValue s k t
      (if h : (shiftToTargetExponent Format.binary64 k t .exact).1.mantissa = 0 then .zero s
        else .finite s _ (shiftToTargetExponent Format.binary64 k t .exact).2
          (Nat.pos_of_ne_zero h)) := by
  rcases Nat.eq_zero_or_pos k with rfl | hpos
  · rw [dif_pos (shift_zero t)]
    exact .zero rfl
  -- only the mantissa `2 ^ 53` has a bit too many, and it is a power of two, so nothing is lost
  obtain ⟨m, e, j, hm, hrounded, rfl, rfl⟩ : ∃ (m : ℕ) (e : ℤ) (j : ℕ),
      0 < m ∧ Rounded m e ∧ k = m * 2 ^ j ∧ t = e - j := by
    rcases Nat.lt_or_eq_of_le hk with hlt | rfl
    · exact ⟨k, t, 0, hpos, ⟨hlt, ht, hnormal⟩, by omega, by omega⟩
    · exact ⟨2 ^ 52, t + 1, 1, by decide, ⟨by decide, by omega, .inl le_rfl⟩, rfl, by omega⟩
  simp only [shiftToTargetExponent_eq hm hrounded j]
  rw [dif_neg hm.ne']
  refine .finite hrounded ?_
  push_cast
  rw [mul_assoc, ← zpow_natCast, ← zpow_add₀ two_ne_zero, add_sub_cancel]

theorem lt_two_pow_of_log2_lt {n : ℕ} (h : m.log2 < n) : (m : ℝ) + 1 ≤ 2 ^ n := by
  have hlt : m + 1 ≤ 2 ^ n := Nat.lt_log2_self.trans_le (Nat.pow_le_pow_right two_pos h)
  exact_mod_cast hlt

theorem two_pow_le_of_le_log2 {n : ℕ} (hn : 0 < n) (h : n ≤ m.log2) : (2 : ℝ) ^ n ≤ m := by
  have hm : m ≠ 0 := by
    rintro rfl
    exact absurd (hn.trans_le h) (by decide)
  have hle : 2 ^ n ≤ m := (Nat.pow_le_pow_right two_pos h).trans (Nat.log2_self_le hm)
  exact_mod_cast hle

theorem mantissa_ofMantissaAndAccuracy (m : ℕ) (a : Accuracy) :
    (ExtendedMantissa.ofMantissaAndAccuracy m a).mantissa = m := by
  rcases a with _ | (_ | _ | _) <;> rfl

/-- The exponent that is chosen leaves the mantissa 53 bits, or it is the smallest one. -/
theorem roundsTo_shifted {a : Accuracy} {x : ℝ} {t : ℤ} {n : ℕ}
    (ht : t = max ((m.log2 : ℤ) + e - 52) (-1074)) (hn : t = e + n)
    (hx : Reads (ExtendedMantissa.ofMantissaAndAccuracy m a) (x / 2 ^ e)) :
    RoundsTo x (ExtendedMantissa.ofMantissaAndAccuracy m a >>> n).roundedMantissa t := by
  have hscale : x / 2 ^ e / 2 ^ n = x / 2 ^ t := by
    rw [hn, zpow_add₀ two_ne_zero, zpow_natCast, div_div]
  have hlo := hx.mantissa_le
  have hhi := hx.lt_mantissa_add_one
  rw [mantissa_ofMantissaAndAccuracy] at hlo hhi
  refine ⟨by omega, hscale ▸ (hx.shiftRight n).isNearest, ?_, ?_⟩
  · -- the exponent is at least what leaves 53 bits, so there are no more
    have hm' : (m : ℝ) + 1 ≤ 2 ^ (53 + n) := lt_two_pow_of_log2_lt (by omega)
    rw [← hscale, div_lt_iff₀ (by positivity), ← pow_add]
    exact hhi.trans_le hm'
  · rcases eq_or_ne t (-1074) with hmin | hne
    · exact .inr hmin
    · -- a larger exponent than the smallest is the one that leaves 53 bits
      have hm' : (2 : ℝ) ^ (52 + n) ≤ m := two_pow_le_of_le_log2 (by omega) (by omega)
      left
      rw [← hscale, le_div_iff₀ (by positivity), ← pow_add]
      exact hm'.trans hlo

/-- Rounding with the residual bits of a magnitude rounds that magnitude, if there are enough bits
or the exponent is small enough. -/
theorem exists_roundsTo (s : Sign) {a : Accuracy} {x : ℝ}
    (hx : Reads (ExtendedMantissa.ofMantissaAndAccuracy m a) (x / 2 ^ e))
    (he : 52 ≤ m.log2 ∨ e ≤ -1074) :
    ∃ k t, RoundsTo x k t ∧ HasValue s k t (roundWithAccuracy Format.binary64 s m e a) := by
  -- the exponent that the operation aims at is the one of `roundsTo_shifted`
  obtain ⟨t, htarget, ht⟩ : ∃ t, Format.binary64.targetExponent (totalExponent m e) = t
      ∧ t = max ((m.log2 : ℤ) + e - 52) (-1074) := by
    refine ⟨_, rfl, ?_⟩
    show max (((m.log2 : ℤ) + 1 + e) - (53 : ℕ)) (-1074) = _
    omega
  obtain ⟨n, hn, hn'⟩ : ∃ n : ℕ, (t - e).toNat = n ∧ t = e + n := ⟨_, rfl, by omega⟩
  have hround := roundsTo_shifted ht hn' hx
  refine ⟨_, t, hround, ?_⟩
  have hshift : shiftToTargetExponent Format.binary64 m e a
      = (ExtendedMantissa.ofMantissaAndAccuracy m a >>> n, t) := by
    rw [shiftToTargetExponent, htarget]
    simp only [shiftToExponent, hn]
    rw [← hn']
  rw [roundWithAccuracy, hshift]
  exact hasValue_shifted hround.le_two_pow hround.le_exponent hround.le_mantissa_or

end Rounding

end NewtonMethod.Double
