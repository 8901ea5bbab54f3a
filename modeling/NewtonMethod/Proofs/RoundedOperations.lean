/-
NewtonMethod/Proofs/RoundedOperations.lean

The operations on doubles as exact operations followed by a rounding.

The `size` of a finite double is its magnitude as a real number.  `Rounds s x a` says that
the double `a` is what the sign `s` and the magnitude `x` are rounded to: a zero if `x`
is too small, an infinity if it is too large, and otherwise as close to `x` as a double
can be.  Products, quotients, sums and square roots are all of this kind,

    size (a · b)  from  size a · size b          size (a + b)  from  size a + size b
    size (a / b)  from  size a / size b          size √a       from  √(size a)

the sums and the roots for numbers that are not negative (`rounds_mul`, `rounds_div`,
`rounds_add`, `rounds_sqrt`).  What is used of it are bounds: a result is at most, or at
least, whatever representable number the exact result is (`Rounds.size_le`,
`Rounds.le_size`).
-/
import Mathlib
import NewtonMethod.Proofs.Magnitude

namespace NewtonMethod.Double

open Float.Model (Format UnpackedFloat totalExponent)
open Float.Model.UnpackedFloat (Accuracy ExtendedMantissa Sign roundWithAccuracy)

variable {s t : Sign} {a b : Float} {x g : ℝ}

/-! ### Rounded magnitudes -/

/-- The double `a` is what the sign `s` and the magnitude `x` are rounded to. -/
structure Rounds (s : Sign) (x : ℝ) (a : Float) : Prop where
  hasSign_or : HasSign s (parts a) ∨ parts a = .infinity s
  isZero_iff : Arithmetic.isZero a = true ↔ x ≤ 2 ^ (-1075 : ℤ)
  isFinite_iff : Arithmetic.isFinite a = true ↔ x < overflowBound
  abs_sub_le : Arithmetic.isFinite a = true → ∀ g, Representable g → |size a - x| ≤ |g - x|

namespace Rounds

variable (h : Rounds s x a)

include h

theorem hasSign (hfin : Arithmetic.isFinite a = true) : HasSign s (parts a) := by
  refine h.hasSign_or.resolve_right fun hinf => ?_
  rw [isFinite_eq, hinf] at hfin
  cases hfin

/-- What is at most a representable number is rounded to one that is at most that number. -/
theorem size_le (hfin : Arithmetic.isFinite a = true) (hg : Representable g) (hx : x ≤ g) :
    size a ≤ g := by
  have hnear := h.abs_sub_le hfin g hg
  rw [abs_of_nonneg (sub_nonneg.mpr hx)] at hnear
  linarith [le_abs_self (size a - x)]

theorem isFinite_and_size_le (hg : Representable g) (hx : x ≤ g) (hbound : g < overflowBound) :
    Arithmetic.isFinite a = true ∧ size a ≤ g := by
  have hfin := h.isFinite_iff.mpr (hx.trans_lt hbound)
  exact ⟨hfin, h.size_le hfin hg hx⟩

/-- What is at least a representable number is rounded to one that is at least that number. -/
theorem le_size (hfin : Arithmetic.isFinite a = true) (hg : Representable g) (hx : g ≤ x) :
    g ≤ size a := by
  have hnear := h.abs_sub_le hfin g hg
  rw [abs_of_nonpos (sub_nonpos.mpr hx)] at hnear
  linarith [neg_abs_le (size a - x)]

/-- What is not rounded to zero or to an infinity keeps at least half of its size. -/
theorem half_le_size (hfin : Arithmetic.isFinite a = true) (hx : 2 ^ (-1075 : ℤ) < x) :
    x / 2 ≤ size a := by
  rcases le_or_gt (2 ^ (-1074 : ℤ)) x with hle | hlt
  · -- the largest power of two that is not above `x`
    obtain ⟨n, hn, hn'⟩ := exists_mem_Ico_zpow ((two_zpow_pos _).trans_le hle) one_lt_two
    have hmin : -1074 ≤ n := by
      have := (zpow_lt_zpow_iff_right₀ (one_lt_two (α := ℝ))).mp (hle.trans_lt hn')
      omega
    have hpower : Representable (2 ^ n) := ⟨1, n, by decide, hmin, by simp⟩
    have hle' := h.le_size hfin hpower hn
    rw [zpow_add_one₀ two_ne_zero] at hn'
    linarith
  · -- below the smallest number the result is that number, since it is not zero
    have hpos : 2 ^ (-1075 : ℤ) < size a := by
      rw [← not_le, ← isZero_iff_size_le hfin, h.isZero_iff, not_le]
      exact hx
    have hunit : (2 : ℝ) ^ (-1074 : ℤ) = 2 * 2 ^ (-1075 : ℤ) := zpow_one_add₀ two_ne_zero (-1075)
    linarith

end Rounds

/-- What a double in range is rounded to is that double. -/
theorem rounds_size (h : HasSign s (parts a)) : Rounds s (size a) a where
  hasSign_or := .inl h
  isZero_iff := isZero_iff_size_le h.isFinite
  isFinite_iff := iff_of_true h.isFinite (size_lt_overflowBound a)
  abs_sub_le _ g _ := by simp

/-- A value whose size is that of the rounded magnitude. -/
theorem rounds_of_size_eq {k : ℕ} {e : ℤ} (hround : RoundsTo x k e) (hsign : HasSign s (parts a))
    (hsize : size a = k * 2 ^ e) (hzero : Arithmetic.isZero a = true ↔ k = 0)
    (hlt : k * (2 : ℝ) ^ e < 2 ^ (1024 : ℤ)) : Rounds s x a where
  hasSign_or := .inl hsign
  isZero_iff := hzero.trans hround.eq_zero_iff
  isFinite_iff := iff_of_true hsign.isFinite (hround.lt_iff.mp hlt)
  abs_sub_le _ g hg := by
    rw [hsize]
    exact hround.abs_sub_le hg

/-- An infinity where the rounded magnitude is too large. -/
theorem rounds_of_infinity {k : ℕ} {e : ℤ} (hround : RoundsTo x k e)
    (hinf : parts a = .infinity s) (hk : k ≠ 0) (hge : 2 ^ (1024 : ℤ) ≤ k * (2 : ℝ) ^ e) :
    Rounds s x a := by
  have hfin : ¬Arithmetic.isFinite a = true := by
    rw [isFinite_eq, hinf]
    exact Bool.false_ne_true
  refine ⟨.inr hinf, ?_, iff_of_false hfin (mt hround.lt_iff.mpr (not_lt.mpr hge)),
    fun h => absurd h hfin⟩
  rw [isZero_iff, hinf]
  exact iff_of_false (by rintro ⟨_, ⟨⟩⟩) (mt hround.eq_zero_iff.mpr hk)

section Stored

variable {m : ℕ} {e : ℤ} {hm : 0 < m}

/-- What is stored as a finite value is below `2¹⁰²⁴`. -/
theorem mul_lt_of_parts_eq_finite (h : parts a = .finite s m e hm) :
    m * (2 : ℝ) ^ e < 2 ^ (1024 : ℤ) := by
  have hcanonical := canonical_parts a
  rw [h] at hcanonical
  obtain ⟨hm', -, he, -⟩ := hcanonical
  rw [two_zpow_max]
  calc m * (2 : ℝ) ^ e ≤ m * 2 ^ (971 : ℤ) :=
        mul_le_mul_of_nonneg_left (two_zpow_le_two_zpow he) (Nat.cast_nonneg m)
    _ < 2 ^ 53 * 2 ^ (971 : ℤ) :=
        mul_lt_mul_of_pos_right (by exact_mod_cast hm') (two_zpow_pos 971)

theorem le_mul_of_parts_eq_infinity (hrounded : Rounded m e)
    (h : parts (ofParts (.finite s m e hm)) = .infinity s) :
    2 ^ (1024 : ℤ) ≤ m * (2 : ℝ) ^ e := by
  -- with a smaller exponent the value could be stored
  have he : 971 < e := by
    by_contra hle
    have hstored := parts_ofParts (u := .finite s m e hm)
      ⟨hrounded.mantissa_lt, hrounded.le_exponent, not_lt.mp hle, hrounded.normal_or⟩
    rw [h] at hstored
    cases hstored
  have hm' : (2 : ℝ) ^ 52 ≤ m := by
    exact_mod_cast hrounded.normal_or.resolve_right fun hmin => by omega
  rw [show (1024 : ℤ) = (52 : ℕ) + 972 by rfl, zpow_add₀ two_ne_zero, zpow_natCast]
  exact mul_le_mul hm' (two_zpow_le_two_zpow he) (two_zpow_pos _).le (Nat.cast_nonneg m)

end Stored

/-- The value that rounding chooses is stored, if it is not too large. -/
theorem rounds_of_roundsTo {k : ℕ} {e : ℤ} {u : UnpackedFloat} (hround : RoundsTo x k e)
    (hvalue : HasValue s k e u) : Rounds s x (ofParts u) := by
  cases hvalue with
  | zero hk =>
    have hparts : parts (ofParts (.zero s)) = .zero s := parts_ofParts trivial
    have hsize : size (ofParts (.zero s)) = k * 2 ^ e := by
      rw [size, hparts, hk, Nat.cast_zero, zero_mul, magnitude_zero]
    refine rounds_of_size_eq hround ?_ hsize (iff_of_true (isZero_iff.mpr ⟨s, hparts⟩) hk) ?_
    · rw [hparts]
      exact .zero
    · rw [hk, Nat.cast_zero, zero_mul]
      exact two_zpow_pos _
  | @finite m e' hm hrounded hvalue =>
    have hk : k ≠ 0 := by
      rintro rfl
      have hpos : 0 < m * (2 : ℝ) ^ e' := mul_pos (Nat.cast_pos.mpr hm) (two_zpow_pos e')
      rw [hvalue, Nat.cast_zero, zero_mul] at hpos
      exact lt_irrefl _ hpos
    -- stored as it is or as an infinity, according to its size
    rcases parts_ofParts_of_rounded s hm hrounded with hparts | hparts
    · have hsize : size (ofParts (.finite s m e' hm)) = k * 2 ^ e := by
        rw [size, hparts, magnitude_finite, hvalue]
      refine rounds_of_size_eq hround ?_ hsize (iff_of_false ?_ hk) ?_
      · rw [hparts]
        exact .finite
      · rw [isZero_iff, hparts]
        rintro ⟨_, ⟨⟩⟩
      · rw [← hvalue]
        exact mul_lt_of_parts_eq_finite hparts
    · refine rounds_of_infinity hround hparts hk ?_
      rw [← hvalue]
      exact le_mul_of_parts_eq_infinity hrounded hparts

/-- Rounding with the residual bits of a magnitude, if there are enough bits or the exponent is
small enough. -/
theorem rounds_roundWithAccuracy (s : Sign) {m : ℕ} {e : ℤ} {accuracy : Accuracy}
    (hx : Reads (ExtendedMantissa.ofMantissaAndAccuracy m accuracy) (x / 2 ^ e))
    (he : 52 ≤ m.log2 ∨ e ≤ -1074) :
    Rounds s x (ofParts (roundWithAccuracy Format.binary64 s m e accuracy)) := by
  obtain ⟨k, t, hround, hvalue⟩ := exists_roundsTo s hx he
  exact rounds_of_roundsTo hround hvalue

/-- An exponent that is not the smallest one leaves 53 bits. -/
theorem targetExponent_of_ne {e : ℤ} (h : Format.binary64.targetExponent e ≠ -1074) :
    Format.binary64.targetExponent e = e - 53 := by
  have hmax : Format.binary64.targetExponent e = max (e - (53 : ℕ)) (-1074) := rfl
  rw [hmax] at h ⊢
  exact (max_choice _ _).resolve_right h

theorem rounds_zero (s : Sign) : Rounds s 0 (ofParts (.zero s)) := by
  have hparts : parts (ofParts (.zero s)) = .zero s := parts_ofParts trivial
  have hsize : size (ofParts (.zero s)) = 0 := by
    rw [size, hparts]
    rfl
  rw [← hsize]
  apply rounds_size
  rw [hparts]
  exact .zero

/-! ### Products -/

theorem le_log2_mul {m n : ℕ} (hm : 2 ^ 52 ≤ m) (hn : 0 < n) : 52 ≤ (m * n).log2 :=
  (Nat.le_log2 (Nat.mul_pos (by omega) hn).ne').mpr (hm.trans (Nat.le_mul_of_pos_right m hn))

/-- A product has the product of the signs and of the magnitudes. -/
theorem rounds_mul (ha : HasSign s (parts a)) (hb : HasSign t (parts b)) :
    Rounds (s * t) (size a * size b) (a * b) := by
  have hcanonical := canonical_parts a
  have hcanonical' := canonical_parts b
  rw [mul_eq, size, size]
  generalize parts a = u at ha hcanonical ⊢
  generalize parts b = v at hb hcanonical' ⊢
  cases ha with
  | zero =>
    rw [magnitude_zero, zero_mul]
    cases hb <;> exact rounds_zero (s * t)
  | @finite m e hm =>
    cases hb with
    | zero =>
      rw [magnitude_zero, mul_zero]
      exact rounds_zero (s * t)
    | @finite n f hn =>
      apply rounds_roundWithAccuracy
      · have hvalue : m * (2 : ℝ) ^ e * (n * 2 ^ f) / 2 ^ (e + f) = (m * n : ℕ) := by
          rw [zpow_add₀ two_ne_zero]
          push_cast
          field_simp
        rw [magnitude_finite, magnitude_finite, hvalue]
        exact .exact (m * n)
      · -- only two subnormal numbers may leave too few bits
        rcases hcanonical.2.2.2 with hlarge | rfl
        · exact .inl (le_log2_mul hlarge hn)
        · rcases hcanonical'.2.2.2 with hlarge | rfl
          · rw [mul_comm]
            exact .inl (le_log2_mul hlarge hm)
          · exact .inr (by decide)

/-- A product with a factor that is not finite is not finite, zero times an infinity included. -/
theorem isFinite_mul_of_left (b : Float) (h : Arithmetic.isFinite a = false) :
    Arithmetic.isFinite (a * b) = false := by
  have hnan : Arithmetic.isFinite (ofParts .notANumber) = false := by
    rw [isFinite_eq, parts_ofParts (u := .notANumber) trivial]
    rfl
  have hinf (s : Sign) : Arithmetic.isFinite (ofParts (.infinity s)) = false := by
    rw [isFinite_eq, parts_ofParts (u := .infinity s) trivial]
    rfl
  rw [isFinite_eq] at h
  rw [mul_eq]
  generalize parts a = u at h ⊢
  generalize parts b = v
  rcases u with s | _ | s | ⟨s, m, e, hm⟩
  case zero => cases h
  case finite => cases h
  case notANumber => exact hnan
  -- an infinity times zero or no number is no number, and otherwise it stays one
  case infinity =>
    rcases v with t | _ | t | ⟨t, n, f, hn⟩
    case notANumber => exact hnan
    case zero => exact hnan
    case infinity => exact hinf (s * t)
    case finite => exact hinf (s * t)

/-! ### Quotients -/

/-- The remainder of a division tells what follows the integer part of the quotient. -/
theorem reads_quotient (n : ℕ) {d : ℕ} (hd : 0 < d) :
    Reads (ExtendedMantissa.ofMantissaAndAccuracy (n / d)
      (UnpackedFloat.accuracyOfFraction (n % d) d)) (n / d) := by
  have hd' : (0 : ℝ) < d := Nat.cast_pos.mpr hd
  have hn : (n : ℝ) = d * (n / d : ℕ) + (n % d : ℕ) := by exact_mod_cast (Nat.div_add_mod n d).symm
  have hvalue : (n : ℝ) / d = (n / d : ℕ) + (n % d : ℕ) / d := by
    conv_lhs => rw [hn]
    field_simp
  have hlt : (n % d : ℕ) / (d : ℝ) < 1 := by
    rw [div_lt_one hd']
    exact_mod_cast Nat.mod_lt n hd
  rw [hvalue, UnpackedFloat.accuracyOfFraction]
  split
  next hzero =>
    rw [hzero, Nat.cast_zero, zero_div, add_zero]
    exact .exact _
  next hrest =>
    have hpos : 0 < (n % d : ℕ) / (d : ℝ) :=
      div_pos (Nat.cast_pos.mpr (Nat.pos_of_ne_zero hrest)) hd'
    -- the remainder is compared with half of the divisor
    rcases hcompare : compare (2 * (n % d)) d with _ | _ | _
    · have hhalf : (2 * (n % d : ℕ) : ℝ) < d := by
        exact_mod_cast (compare_lt_iff_lt.mp hcompare)
      refine .below (lt_add_of_pos_right _ hpos) (add_lt_add_right ?_ _)
      rw [div_lt_div_iff₀ hd' two_pos, one_mul, mul_comm]
      exact hhalf
    · have hhalf : (2 * (n % d : ℕ) : ℝ) = d := by
        exact_mod_cast (compare_eq_iff_eq.mp hcompare)
      have : ((n % d : ℕ) : ℝ) / d = 1 / 2 := by
        rw [div_eq_div_iff hd'.ne' two_ne_zero, one_mul, mul_comm]
        exact hhalf
      rw [this]
      exact .half _
    · have hhalf : (d : ℝ) < 2 * (n % d : ℕ) := by
        exact_mod_cast (compare_gt_iff_gt.mp hcompare)
      refine .above (add_lt_add_right ?_ _) (add_lt_add_right hlt _)
      rw [div_lt_div_iff₀ two_pos hd', one_mul, mul_comm]
      exact hhalf

theorem le_log2_div {m n k : ℕ} (hm : 0 < m) (hn : 0 < n) (h : n.log2 + 53 ≤ m.log2 + k) :
    52 ≤ (m * 2 ^ k / n).log2 := by
  have hle : 2 ^ 52 ≤ m * 2 ^ k / n := by
    rw [Nat.le_div_iff_mul_le hn]
    calc 2 ^ 52 * n ≤ 2 ^ 52 * 2 ^ (n.log2 + 1) := Nat.mul_le_mul_left _ Nat.lt_log2_self.le
      _ = 2 ^ (n.log2 + 53) := by rw [← pow_add]; congr 1; omega
      _ ≤ 2 ^ (m.log2 + k) := Nat.pow_le_pow_right two_pos h
      _ = 2 ^ m.log2 * 2 ^ k := pow_add _ _ _
      _ ≤ m * 2 ^ k := Nat.mul_le_mul_right _ (Nat.log2_self_le hm.ne')
  exact (Nat.le_log2 (by omega)).mpr hle

/-- A quotient by a number other than zero has the quotient of the signs and of the magnitudes. -/
theorem rounds_div (ha : HasSign s (parts a)) (hb : HasSign t (parts b))
    (hne : Arithmetic.isZero b = false) : Rounds (s / t) (size a / size b) (a / b) := by
  have hcanonical := canonical_parts b
  rw [← Bool.not_eq_true, isZero_iff] at hne
  rw [div_eq, size, size]
  generalize parts a = u at ha ⊢
  generalize parts b = v at hb hne ⊢
  cases hb with
  | zero => exact absurd ⟨t, rfl⟩ hne
  | @finite n f hn =>
    cases ha with
    | zero =>
      rw [magnitude_zero, zero_div]
      exact rounds_zero (s / t)
    | @finite m e hm =>
      -- the exponent of the integer part, and by how much the first mantissa is shifted for it
      obtain ⟨te, hte⟩ : ∃ te, te = min (e - f) (Format.binary64.targetExponent
        (totalExponent m e - totalExponent n f)) := ⟨_, rfl⟩
      obtain ⟨k, hk, hk'⟩ : ∃ k : ℕ, (e - f - te).toNat = k ∧ e = f + te + k :=
        ⟨_, rfl, by omega⟩
      have hcore : UnpackedFloat.divCore Format.binary64 m e n f
          = (m * 2 ^ k / n, te, UnpackedFloat.accuracyOfFraction (m * 2 ^ k % n) n) := by
        rw [UnpackedFloat.divCore, ← hte, hk, Nat.shiftLeft_eq]
      have hvalue : m * (2 : ℝ) ^ e / (n * 2 ^ f) / 2 ^ te = (m * 2 ^ k : ℕ) / (n : ℝ) := by
        rw [hk', zpow_add₀ two_ne_zero, zpow_add₀ two_ne_zero, zpow_natCast]
        push_cast
        field_simp
      rw [UnpackedFloat.div, hcore]
      apply rounds_roundWithAccuracy
      · rw [magnitude_finite, magnitude_finite, hvalue]
        exact reads_quotient _ hn
      · -- the exponent is small enough, or the integer part has 53 bits
        rcases eq_or_ne (Format.binary64.targetExponent
          (totalExponent m e - totalExponent n f)) (-1074) with hmin | hmin
        · exact .inr (hte.trans_le (hmin ▸ min_le_right _ _))
        · refine .inl (le_log2_div hm hn ?_)
          rw [targetExponent_of_ne hmin, totalExponent, totalExponent] at hte
          omega

/-! ### Sums -/

/-- A magnitude with any mantissa and exponent is rounded. -/
theorem rounds_round (s : Sign) {m : ℕ} (hm : 0 < m) (e : ℤ) :
    Rounds s (m * 2 ^ e) (ofParts (UnpackedFloat.round Format.binary64 s m e)) := by
  obtain ⟨te, hte⟩ : ∃ te, te = Format.binary64.targetExponent (totalExponent m e) := ⟨_, rfl⟩
  obtain ⟨k, hk⟩ : ∃ k : ℕ, (e - te).toNat = k := ⟨_, rfl⟩
  have hvalue : m * (2 : ℝ) ^ e / 2 ^ (e - k) = (m * 2 ^ k : ℕ) := by
    rw [zpow_sub₀ two_ne_zero, zpow_natCast]
    push_cast
    field_simp
  rw [UnpackedFloat.round, ← hte, UnpackedFloat.decreaseExponent, hk, Nat.shiftLeft_eq]
  apply rounds_roundWithAccuracy
  · rw [hvalue]
    exact .exact _
  · rcases eq_or_ne (Format.binary64.targetExponent (totalExponent m e)) (-1074) with hmin | hmin
    · rw [hmin] at hte
      omega
    · rw [targetExponent_of_ne hmin, totalExponent] at hte
      rw [log2_mul_two_pow hm]
      omega

theorem normalize_natCast {m : ℕ} (hm : 0 < m) (e : ℤ) :
    UnpackedFloat.normalize Format.binary64 (m : ℤ) e .positive
      = UnpackedFloat.round Format.binary64 .positive m e := by
  have hpos : compare (m : ℤ) 0 = .gt := compare_gt_iff_gt.mpr (Int.natCast_pos.mpr hm)
  rw [UnpackedFloat.normalize, hpos]
  rfl

theorem rounds_ofParts_parts (ha : HasSign s (parts a)) :
    Rounds s (magnitude (parts a)) (ofParts (parts a)) := by
  have hparts : parts (ofParts (parts a)) = parts a := parts_ofParts (canonical_parts a)
  have hrounds := rounds_size (a := ofParts (parts a)) (by rwa [hparts])
  rwa [size, hparts] at hrounds

/-- A sum of numbers with a positive sign. -/
theorem rounds_add (ha : HasSign .positive (parts a)) (hb : HasSign .positive (parts b)) :
    Rounds .positive (size a + size b) (a + b) := by
  have hadd : a + b = ofParts (UnpackedFloat.add Format.binary64 (parts a) (parts b)) := rfl
  have ha' := rounds_ofParts_parts ha
  have hb' := rounds_ofParts_parts hb
  rw [hadd, size, size]
  generalize parts a = u at ha ha' ⊢
  generalize parts b = v at hb hb' ⊢
  cases ha with
  | zero =>
    rw [magnitude_zero, zero_add]
    cases hb with
    | zero => exact hb'
    | finite => exact hb'
  | @finite m e hm =>
    cases hb with
    | zero =>
      rw [magnitude_zero, add_zero]
      exact ha'
    | @finite n f hn =>
      -- both mantissas are shifted to the smaller exponent, where they are added without error
      obtain ⟨l, i, j, hl, hi, hj, rfl, rfl⟩ : ∃ (l : ℤ) (i j : ℕ), min e f = l
          ∧ (e - l).toNat = i ∧ (f - l).toNat = j ∧ e = i + l ∧ f = j + l :=
        ⟨_, _, _, rfl, rfl, rfl, by omega, by omega⟩
      have hvalue : m * (2 : ℝ) ^ (i + l) + n * 2 ^ (j + l)
          = (m * 2 ^ i + n * 2 ^ j : ℕ) * 2 ^ l := by
        rw [zpow_add₀ two_ne_zero, zpow_add₀ two_ne_zero, zpow_natCast, zpow_natCast]
        push_cast
        ring
      have hpos : 0 < m * 2 ^ i + n * 2 ^ j := by positivity
      have hround : UnpackedFloat.add Format.binary64 (.finite .positive m (i + l) hm)
          (.finite .positive n (j + l) hn)
          = UnpackedFloat.round Format.binary64 .positive (m * 2 ^ i + n * 2 ^ j) l := by
        simp only [UnpackedFloat.add, UnpackedFloat.decreaseExponent, hl, hi, hj,
          Nat.shiftLeft_eq]
        exact normalize_natCast hpos l
      rw [magnitude_finite, magnitude_finite, hvalue, hround]
      exact rounds_round .positive hpos l

/-! ### Square roots -/

/-- How far the root of a number is from its integer part. -/
def accuracyOfRoot (n : ℕ) : Accuracy :=
  if n - n.sqrt * n.sqrt = 0 then .exact
  else .inexact (if n - n.sqrt * n.sqrt ≤ n.sqrt then .lt else .gt)

/-- The rest of an integer square root tells what follows the integer part of the root. -/
theorem reads_sqrt (n : ℕ) :
    Reads (ExtendedMantissa.ofMantissaAndAccuracy n.sqrt (accuracyOfRoot n)) √n := by
  obtain ⟨d, hd⟩ : ∃ d, n = n.sqrt * n.sqrt + d := Nat.exists_eq_add_of_le (Nat.sqrt_le n)
  have hlt := Nat.lt_succ_sqrt n
  rw [accuracyOfRoot]
  generalize n.sqrt = r at hd hlt ⊢
  have hrest : n - r * r = d := by omega
  have hnonneg : (0 : ℝ) ≤ r := Nat.cast_nonneg r
  have hhalf : (0 : ℝ) < r + 1 / 2 := add_pos_of_nonneg_of_pos hnonneg one_half_pos
  have hn : (n : ℝ) = r ^ 2 + d := by
    rw [hd]
    push_cast
    ring
  rw [hrest]
  split
  next hzero =>
    rw [hn, hzero, Nat.cast_zero, add_zero, Real.sqrt_sq hnonneg]
    exact .exact r
  next hpos =>
    have hpos' : (1 : ℝ) ≤ d := by exact_mod_cast Nat.one_le_iff_ne_zero.mpr hpos
    -- the square of `r + 1/2` is between two integers
    have hsquare : ((r : ℝ) + 1 / 2) ^ 2 = r ^ 2 + r + 1 / 4 := by ring
    split
    next hle =>
      have hle' : (d : ℝ) ≤ r := by exact_mod_cast hle
      refine .below ((Real.lt_sqrt hnonneg).mpr ?_) ((Real.sqrt_lt' hhalf).mpr ?_) <;> linarith
    next hgt =>
      have hgt' : (r : ℝ) + 1 ≤ d := by exact_mod_cast not_le.mp hgt
      have hn' : (n : ℝ) < (r + 1) ^ 2 := by
        have : (n : ℝ) < ((r + 1) * (r + 1) : ℕ) := Nat.cast_lt.mpr hlt
        push_cast at this
        linarith
      refine .above ((Real.lt_sqrt hhalf.le).mpr ?_) ((Real.sqrt_lt' (by linarith)).mpr hn')
      linarith

theorem le_log2_sqrt {m k : ℕ} (hm : 0 < m) (h : 104 ≤ m.log2 + k) :
    52 ≤ (m * 2 ^ k).sqrt.log2 := by
  have hle : 2 ^ 52 ≤ (m * 2 ^ k).sqrt := by
    rw [Nat.le_sqrt]
    calc 2 ^ 52 * 2 ^ 52 ≤ 2 ^ (m.log2 + k) := by
          rw [← pow_add]
          exact Nat.pow_le_pow_right two_pos h
      _ = 2 ^ m.log2 * 2 ^ k := pow_add _ _ _
      _ ≤ m * 2 ^ k := Nat.mul_le_mul_right _ (Nat.log2_self_le hm.ne')
  exact (Nat.le_log2 (by omega)).mpr hle

/-- The root of a number with a positive sign. -/
theorem rounds_sqrt (ha : HasSign .positive (parts a)) :
    Rounds .positive √(size a) (Arithmetic.sqrt a) := by
  have hsqrt : Arithmetic.sqrt a = ofParts (UnpackedFloat.sqrt Format.binary64 (parts a)) := rfl
  rw [hsqrt, size]
  generalize parts a = u at ha ⊢
  cases ha with
  | zero =>
    rw [magnitude_zero, Real.sqrt_zero]
    exact rounds_zero .positive
  | @finite m e hm =>
    obtain ⟨te, hte⟩ : ∃ te, te = min (e / 2) (Format.binary64.targetExponent
      ((totalExponent m e + 1) / 2)) := ⟨_, rfl⟩
    obtain ⟨k, hk, hk'⟩ : ∃ k : ℕ, (e - 2 * te).toNat = k ∧ e = k + (te + te) :=
      ⟨_, rfl, by omega⟩
    have hvalue : √(m * (2 : ℝ) ^ e) / 2 ^ te = √(m * 2 ^ k : ℕ) := by
      rw [hk', zpow_add₀ two_ne_zero, zpow_add₀ two_ne_zero, ← mul_assoc, zpow_natCast,
        Real.sqrt_mul (by positivity), Real.sqrt_mul_self (two_zpow_pos te).le,
        mul_div_cancel_right₀ _ (two_zpow_pos te).ne']
      push_cast
      rfl
    have hcore : UnpackedFloat.sqrtCore Format.binary64 m e
        = ((m * 2 ^ k).sqrt, te, accuracyOfRoot (m * 2 ^ k)) := by
      rw [← Nat.shiftLeft_eq, ← hk, hte]
      rfl
    rw [UnpackedFloat.sqrt, hcore]
    apply rounds_roundWithAccuracy
    · rw [magnitude_finite, hvalue]
      exact reads_sqrt _
    · rcases eq_or_ne (Format.binary64.targetExponent ((totalExponent m e + 1) / 2)) (-1074)
        with hmin | hmin
      · exact .inr (hte.trans_le (hmin ▸ min_le_right _ _))
      · refine .inl (le_log2_sqrt hm ?_)
        rw [targetExponent_of_ne hmin, totalExponent] at hte
        omega

end NewtonMethod.Double
