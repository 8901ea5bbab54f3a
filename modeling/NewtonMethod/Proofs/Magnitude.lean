/-
NewtonMethod/Proofs/Magnitude.lean

Finite doubles as signed magnitudes.

A finite double has a sign (`HasSign`) and a `size`, its magnitude as a real number.
Both zeros have the size zero.  The size is a multiple of `2⁻¹⁰⁷⁴` with at most 53 bits
(`representable_size`) and below the bound from which on a number is rounded to an
infinity (`size_lt_overflowBound`).

For numbers with a positive sign the order of the doubles is that of the sizes
(`le_iff_size_le`), and what is larger than such a number is one as well, or infinite
(`of_lt`).
-/
import Mathlib
import NewtonMethod.Config
import NewtonMethod.Proofs.Comparison
import NewtonMethod.Proofs.Rounding

namespace NewtonMethod.Double

open Float.Model (UnpackedFloat)
open Float.Model.UnpackedFloat (Sign)

/-! ### Sign and size -/

/-- The magnitude of finite parts. -/
noncomputable def magnitude : UnpackedFloat → ℝ
  | .finite _ m e _ => (m * 2 ^ e : ℚ)
  | _ => 0

theorem magnitude_zero (s : Sign) : magnitude (.zero s) = 0 := rfl

/-- The magnitude of parts that are not zero, as a product of reals. -/
theorem magnitude_finite (s : Sign) {m : ℕ} (e : ℤ) (hm : 0 < m) :
    magnitude (.finite s m e hm) = m * 2 ^ e := by
  rw [magnitude, Rat.cast_mul, Rat.cast_natCast, Rat.cast_zpow, Rat.cast_ofNat]

/-- The magnitude of a finite double. -/
noncomputable def size (a : Float) : ℝ := magnitude (parts a)

/-- The parts are those of a finite value with the sign `s`. -/
inductive HasSign (s : Sign) : UnpackedFloat → Prop
  | zero : HasSign s (.zero s)
  | finite {m : ℕ} {e : ℤ} {hm : 0 < m} : HasSign s (.finite s m e hm)

variable {s : Sign} {a b : Float}

/-- A double is finite exactly if its parts have a sign; infinities are left out of `HasSign`. -/
theorem isFinite_iff : Arithmetic.isFinite a = true ↔ ∃ s, HasSign s (parts a) := by
  rw [isFinite_eq]
  rcases parts a with s | _ | s | ⟨s, m, e, hm⟩
  · exact iff_of_false Bool.false_ne_true (by rintro ⟨_, ⟨⟩⟩)
  · exact iff_of_false Bool.false_ne_true (by rintro ⟨_, ⟨⟩⟩)
  · exact iff_of_true rfl ⟨s, .zero⟩
  · exact iff_of_true rfl ⟨s, .finite⟩

theorem HasSign.isFinite (h : HasSign s (parts a)) : Arithmetic.isFinite a = true :=
  isFinite_iff.mpr ⟨s, h⟩

theorem size_nonneg (a : Float) : 0 ≤ size a := by
  rw [size]
  rcases parts a with s | _ | s | ⟨s, m, e, hm⟩
  · exact le_rfl
  · exact le_rfl
  · exact le_rfl
  · rw [magnitude_finite]
    exact mul_nonneg (Nat.cast_nonneg m) (two_zpow_pos e).le

/-- The size of any double is a representable number; an infinity counts as zero here. -/
theorem representable_size (a : Float) : Representable (size a) := by
  have hzero : Representable 0 := ⟨0, 0, by decide, by decide, by simp⟩
  have hcanonical := canonical_parts a
  rw [size]
  generalize parts a = u at hcanonical ⊢
  rcases u with s | _ | s | ⟨s, m, e, hm⟩
  · exact hzero
  · exact hzero
  · exact hzero
  · exact ⟨m, e, hcanonical.1, hcanonical.2.1, magnitude_finite s e hm⟩

/-- No double comes near the bound. -/
theorem size_lt_overflowBound (a : Float) : size a < overflowBound := by
  have hzero : 0 < overflowBound := by
    rw [overflowBound_eq]
    exact mul_pos (by norm_num) (two_zpow_pos 971)
  have hcanonical := canonical_parts a
  rw [size]
  generalize parts a = u at hcanonical ⊢
  rcases u with s | _ | s | ⟨s, m, e, hm⟩
  · exact hzero
  · exact hzero
  · exact hzero
  · obtain ⟨hm', -, he, -⟩ := hcanonical
    -- the largest mantissa is half a unit short of the bound
    have hm'' : (m : ℝ) ≤ 2 ^ 53 - 1 := by
      have : (m : ℝ) + 1 ≤ 2 ^ 53 := by exact_mod_cast hm'
      linarith
    rw [magnitude_finite, overflowBound_eq]
    calc m * (2 : ℝ) ^ e ≤ (2 ^ 53 - 1) * 2 ^ (971 : ℤ) :=
          mul_le_mul hm'' (two_zpow_le_two_zpow he) (two_zpow_pos e).le (by norm_num)
      _ < (2 ^ 53 - 1 / 2) * 2 ^ (971 : ℤ) :=
          mul_lt_mul_of_pos_right (by norm_num) (two_zpow_pos 971)

/-- A finite double is zero exactly if it has no size, and the smallest size is `2⁻¹⁰⁷⁴`. -/
theorem isZero_iff_size_le (h : Arithmetic.isFinite a = true) :
    Arithmetic.isZero a = true ↔ size a ≤ 2 ^ (-1075 : ℤ) := by
  obtain ⟨s, hs⟩ := isFinite_iff.mp h
  have hcanonical := canonical_parts a
  rw [isZero_iff, size]
  generalize parts a = u at hs hcanonical ⊢
  cases hs with
  | zero => exact iff_of_true ⟨s, rfl⟩ (two_zpow_pos _).le
  | @finite m e hm =>
    -- the mantissa is at least one and the exponent at least the smallest, so the size exceeds
    -- `2⁻¹⁰⁷⁵`
    refine iff_of_false (by rintro ⟨_, ⟨⟩⟩) (not_le.mpr ?_)
    have hm' : (1 : ℝ) ≤ m := by exact_mod_cast hm
    rw [magnitude_finite]
    calc (2 : ℝ) ^ (-1075 : ℤ) < 2 ^ (-1074 : ℤ) := zpow_lt_zpow_right₀ one_lt_two (by decide)
      _ ≤ 2 ^ e := two_zpow_le_two_zpow hcanonical.2.1
      _ ≤ m * 2 ^ e := le_mul_of_one_le_left (two_zpow_pos e).le hm'

theorem size_of_isZero (h : Arithmetic.isZero a = true) : size a = 0 := by
  obtain ⟨s, hs⟩ := isZero_iff.mp h
  rw [size, hs, magnitude_zero]

/-- The absolute value changes the sign only. -/
theorem size_abs (a : Float) : size (Arithmetic.abs a) = size a := by
  rw [size, size, parts_abs]
  rcases parts a with s | _ | s | ⟨s, m, e, hm⟩ <;> rfl

/-- The absolute value of a finite double has a positive sign. -/
theorem hasSign_abs (h : Arithmetic.isFinite a = true) :
    HasSign .positive (parts (Arithmetic.abs a)) := by
  obtain ⟨s, hs⟩ := isFinite_iff.mp h
  rw [parts_abs]
  generalize parts a = u at hs ⊢
  cases hs with
  | zero => exact .zero
  | finite => exact .finite

/-! ### Order -/

/-- With a positive sign a larger exponent, or else a larger mantissa, is a larger magnitude. -/
theorem magnitude_lt_of_rank_lt {u v : UnpackedFloat} (hu : HasSign .positive u)
    (hv : HasSign .positive v) (hcanonical : Canonical u) (hcanonical' : Canonical v)
    (h : rank u < rank v) : magnitude u < magnitude v := by
  cases hv with
  | zero =>
    cases hu with
    | zero => exact absurd h (lt_irrefl _)
    | finite => exact absurd h (by simp [rank, Prod.Lex.lt_iff])
  | @finite n f hn =>
    cases hu with
    | zero =>
      rw [magnitude_zero, magnitude_finite]
      exact mul_pos (Nat.cast_pos.mpr hn) (two_zpow_pos f)
    | @finite m e hm =>
      rw [magnitude_finite, magnitude_finite]
      obtain ⟨hm', he, -, -⟩ := hcanonical
      obtain ⟨-, -, -, hnormal⟩ := hcanonical'
      have hlex : e < f ∨ e = f ∧ m < n := by
        simpa [rank, Prod.Lex.lt_iff] using h
      -- a larger exponent wins whatever the mantissas are: the larger one is normal, so its
      -- mantissa is at least `2 ^ 52`, and one more exponent makes up for the other mantissa
      rcases hlex with hlt | ⟨rfl, hlt⟩
      · have hn' : (2 : ℝ) ^ 52 ≤ n := by
          exact_mod_cast hnormal.resolve_right fun hmin => by omega
        have hunit : 2 * (2 : ℝ) ^ e ≤ 2 ^ f := by
          rw [← zpow_one_add₀ two_ne_zero]
          exact two_zpow_le_two_zpow (by omega)
        calc m * (2 : ℝ) ^ e < 2 ^ 53 * 2 ^ e :=
              mul_lt_mul_of_pos_right (by exact_mod_cast hm') (two_zpow_pos e)
          _ = 2 ^ 52 * (2 * 2 ^ e) := by ring
          _ ≤ n * 2 ^ f := mul_le_mul hn' hunit (by positivity) (Nat.cast_nonneg n)
      · exact mul_lt_mul_of_pos_right (by exact_mod_cast hlt) (two_zpow_pos e)

theorem HasSign.ne_notANumber {u : UnpackedFloat} (h : HasSign s u) : u ≠ .notANumber := by
  rintro rfl
  cases h

/-- What has a positive sign is determined by its place. -/
theorem magnitude_eq_of_rank_eq {u v : UnpackedFloat} (hu : HasSign .positive u)
    (hv : HasSign .positive v) (h : rank u = rank v) : magnitude u = magnitude v := by
  cases hu <;> cases hv
  case zero.zero => rfl
  case zero.finite => simp [rank] at h
  case finite.zero => simp [rank] at h
  case finite.finite =>
    obtain ⟨rfl, rfl⟩ : _ = _ ∧ _ = _ := by simpa [rank] using h
    rfl

section Positive

variable (ha : HasSign .positive (parts a)) (hb : HasSign .positive (parts b))

include ha hb

/-- Among numbers with a positive sign the rank orders by size. -/
theorem rank_le_iff : rank (parts a) ≤ rank (parts b) ↔ size a ≤ size b := by
  constructor
  · intro h
    rcases h.eq_or_lt with heq | hlt
    · exact (magnitude_eq_of_rank_eq ha hb heq).le
    · exact (magnitude_lt_of_rank_lt ha hb (canonical_parts a) (canonical_parts b) hlt).le
  · -- the converse is the same lemma for the two numbers exchanged
    contrapose!
    exact magnitude_lt_of_rank_lt hb ha (canonical_parts b) (canonical_parts a)

/-- Among numbers with a positive sign `≤` of doubles is `≤` of the sizes. -/
theorem le_iff_size_le : Arithmetic.le a b = true ↔ size a ≤ size b := by
  rw [le_iff, rank_le_iff ha hb]
  exact ⟨fun h => h.2.2, fun h => ⟨ha.ne_notANumber, hb.ne_notANumber, h⟩⟩

/-- Among numbers with a positive sign `<` of doubles is `<` of the sizes. -/
theorem lt_iff_size_lt : Arithmetic.lt a b = true ↔ size a < size b := by
  rw [lt_iff, ← not_le, rank_le_iff hb ha, not_le]
  exact ⟨fun h => h.2.2, fun h => ⟨ha.ne_notANumber, hb.ne_notANumber, h⟩⟩

end Positive

/-- What is larger than a number with a positive sign is one, or the positive infinity. -/
theorem hasSign_or_of_lt (ha : HasSign .positive (parts a)) (h : Arithmetic.lt a b = true) :
    HasSign .positive (parts b) ∨ parts b = .infinity .positive := by
  obtain ⟨-, hb, hlt⟩ := lt_iff.mp h
  generalize parts a = u at ha hlt
  generalize parts b = v at hb hlt
  -- `b` ranks above `a`, hence above zero, which only the two wanted forms do
  have hpos : toLex (0, toLex (0, 0)) < rank v := by
    refine lt_of_le_of_lt ?_ hlt
    cases ha with
    | zero => exact le_rfl
    | finite => simp [rank, Prod.Lex.le_iff]
  rcases v with (_ | _) | _ | s | ⟨_ | _, m, e, hm⟩
  case notANumber => exact absurd rfl hb
  case zero => exact absurd hpos (lt_irrefl _)
  case infinity.negative => exact absurd hpos (by simp [rank, Prod.Lex.lt_iff])
  case infinity.positive => exact .inr rfl
  case finite.negative => exact absurd hpos (by simp [rank, Prod.Lex.lt_iff])
  case finite.positive => exact .inl .finite

/-- Every number with a positive sign ranks below the positive infinity. -/
theorem rank_lt_infinity {u : UnpackedFloat} (hu : HasSign .positive u) :
    rank u < rank (.infinity .positive) := by
  cases hu with
  | zero => simp [rank, Prod.Lex.lt_iff]
  | finite => simp [rank, Prod.Lex.lt_iff]

theorem lt_of_parts_eq_infinity (ha : HasSign .positive (parts a))
    (hb : parts b = .infinity .positive) : Arithmetic.lt a b = true := by
  rw [lt_iff, hb]
  exact ⟨ha.ne_notANumber, by rintro ⟨⟩, rank_lt_infinity ha⟩

theorem le_of_parts_eq_infinity (ha : HasSign .positive (parts a))
    (hb : parts b = .infinity .positive) : Arithmetic.le a b = true := by
  rw [le_iff, hb]
  exact ⟨ha.ne_notANumber, by rintro ⟨⟩, (rank_lt_infinity ha).le⟩

theorem hasSign_zero : HasSign .positive (parts 0) := .zero

theorem size_zero : size 0 = 0 := rfl

/-- A setting that has to be positive is a finite number above zero. -/
theorem isPositive_iff : Config.isPositive a = true ↔ HasSign .positive (parts a) ∧ 0 < size a := by
  rw [Config.isPositive, Bool.and_eq_true_iff]
  constructor
  · rintro ⟨hlt, hfin⟩
    -- above zero there are the numbers with a positive sign and the infinity, and the latter is not
    -- finite
    have hsign : HasSign .positive (parts a) := by
      refine (hasSign_or_of_lt hasSign_zero hlt).resolve_right fun hinf => ?_
      rw [isFinite_eq, hinf] at hfin
      cases hfin
    refine ⟨hsign, ?_⟩
    rw [← size_zero]
    exact (lt_iff_size_lt hasSign_zero hsign).mp hlt
  · rintro ⟨hsign, hlt⟩
    exact ⟨(lt_iff_size_lt hasSign_zero hsign).mpr hlt, hsign.isFinite⟩

/-- The size of a given double is bounded by a comparison with another one. -/
theorem size_le_of_le {m : ℕ} {e : ℤ} (hm : 0 < m) (ha : Config.isPositive a = true)
    (hcanonical : Canonical (.finite .positive m e hm))
    (h : Arithmetic.le a (ofParts (.finite .positive m e hm)) = true) : size a ≤ m * 2 ^ e := by
  have hparts := parts_ofParts hcanonical
  have hsign : HasSign .positive (parts (ofParts (.finite .positive m e hm))) := by
    rw [hparts]
    exact .finite
  have hle := (le_iff_size_le (isPositive_iff.mp ha).1 hsign).mp h
  rwa [size, size, hparts, magnitude_finite] at hle

end NewtonMethod.Double
