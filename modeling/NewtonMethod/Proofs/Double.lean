/-
NewtonMethod/Proofs/Double.lean

Doubles as they are computed with.

A double is stored in 64 bits and computed with in parts: a sign, a mantissa and
an exponent,

    ± m · 2^e    with    m < 2^53,   -1074 ≤ e ≤ 971,   2^52 ≤ m  or  e = -1074

or a zero, an infinity or `nan`.  These are the `Canonical` parts, those of a
stored double are canonical (`canonical_parts`), and storing canonical parts
loses nothing (`parts_ofParts`).  Each operation takes its operands apart,
computes without error, rounds and stores what it has.

Rounding takes back a shift to the left (`roundWithAccuracy_mul_two_pow`), so a
product or a quotient that needs no rounding can be read off its mantissas.
Two of them are, that with one and that of a finite number other than zero with
its own magnitude:

    |a| · 1 = |a|        (a / |a|) · (a / |a|) = 1

Twice a number needs no rounding either, but it may be too large to be stored
(`Rounded`), and is then infinite.  In both cases zero divided by it is zero
(`parts_two_mul`, `isZero_zero_div`).
-/
import Mathlib
import NewtonMethod.Arithmetic

namespace NewtonMethod.Double

open Float.Model Float.Model.UnpackedFloat

/-! ### Storing and reading -/

/-- The parts that a double can have. -/
def Canonical : UnpackedFloat → Prop
  | .finite _ m e _ => m < 2 ^ 53 ∧ -1074 ≤ e ∧ e ≤ 971 ∧ (2 ^ 52 ≤ m ∨ e = -1074)
  | _ => True

/-- The leading bit of a mantissa is not stored. -/
theorem toNat_one_append (m : BitVec 52) : (1#1 ++ m).toNat = 2 ^ 52 + m.toNat := by
  rw [BitVec.toNat_append, ← Nat.shiftLeft_add_eq_or_of_lt m.isLt]
  simp [Nat.shiftLeft_eq]

/-- Whatever the 64 bits are, the parts read from them are canonical. -/
theorem canonical_unpack (b : BitVec 64) : Canonical (unpack Format.binary64 b) := by
  have hm : (@unpackMantissa Format.binary64 b).toNat < 2 ^ 52 := BitVec.isLt _
  have he : (@unpackExponent Format.binary64 b).toNat < 2 ^ 11 := BitVec.isLt _
  rw [UnpackedFloat.unpack]
  dsimp only
  split
  next =>
    split
    next => trivial
    next => trivial
  next hmax =>
    split
    next hzero =>
      split
      next => trivial
      next =>
        -- the smallest exponent
        rw [hzero]
        refine ⟨by omega, ?_, ?_, .inr ?_⟩ <;> decide
    next hzero =>
      -- a normal number: its exponent is neither all ones nor all zeros
      rw [← BitVec.toNat_inj] at hmax hzero
      change (@unpackExponent Format.binary64 b).toNat ≠ 2047 at hmax
      change (@unpackExponent Format.binary64 b).toNat ≠ 0 at hzero
      have hbias : (Format.exponentBias Format.binary64 : ℤ) = 1023 := rfl
      rw [Canonical, toNat_one_append, hbias]
      refine ⟨by omega, ?_, ?_, .inl (by omega)⟩
      · omega
      · omega

/-- With an exponent between the smallest and the largest the leading bit of the mantissa is
implied. -/
theorem unpack_normal (s : Sign) {E m : ℕ} (hE : 0 < E) (hE' : E < 2047) (hm : 2 ^ 52 ≤ m)
    (hm' : m < 2 ^ 53) (hpos : 0 < m) :
    unpack Format.binary64
        (packComponents Format.binary64 s (BitVec.ofNat 11 E) (BitVec.ofNat 52 m))
      = .finite s m (E - 1075) hpos := by
  have htoNat : (BitVec.ofNat 11 E).toNat = E := by
    rw [BitVec.toNat_ofNat]
    omega
  have hmax : BitVec.ofNat 11 E ≠ -1#11 := by
    rw [ne_eq, ← BitVec.toNat_inj, htoNat]
    show E ≠ 2047
    omega
  have hzero : BitVec.ofNat 11 E ≠ 0#11 := by
    rw [ne_eq, ← BitVec.toNat_inj, htoNat]
    exact hE.ne'
  rw [UnpackedFloat.unpack]
  simp only [unpackExponent_packComponents, unpackMantissa_packComponents,
    unpackSign_packComponents, Sign.ofBitVec_toBitVec]
  rw [if_neg hmax, if_neg hzero]
  simp only [finite.injEq, true_and]
  refine ⟨?_, ?_⟩
  · rw [toNat_one_append, BitVec.toNat_ofNat]
    omega
  · rw [htoNat]
    rfl

/-- With the smallest exponent the stored bits are the whole mantissa. -/
theorem unpack_subnormal (s : Sign) {m : ℕ} (hm : 0 < m) (hm' : m < 2 ^ 52) :
    unpack Format.binary64 (packComponents Format.binary64 s 0#11 (BitVec.ofNat 52 m))
      = .finite s m (-1074) hm := by
  have htoNat : (BitVec.ofNat 52 m).toNat = m := by
    rw [BitVec.toNat_ofNat]
    omega
  have hzero : BitVec.ofNat 52 m ≠ 0#52 := by
    rw [ne_eq, ← BitVec.toNat_inj, htoNat]
    exact hm.ne'
  rw [UnpackedFloat.unpack]
  simp only [unpackExponent_packComponents, unpackMantissa_packComponents,
    unpackSign_packComponents, Sign.ofBitVec_toBitVec]
  rw [if_neg (by decide), if_pos trivial, dif_neg hzero]
  simp only [finite.injEq, true_and]
  refine ⟨htoNat, ?_⟩
  decide

/-- Canonical parts can be stored. -/
theorem unpack_pack {u : UnpackedFloat} (h : Canonical u) :
    unpack Format.binary64 (UnpackedFloat.pack Format.binary64 u) = u := by
  rcases u with s | _ | s | ⟨s, m, e, hm⟩
  · cases s <;> rfl
  · rfl
  · cases s <;> rfl
  · obtain ⟨hm', he, he', hnormal⟩ := h
    have hbias : (Format.exponentBias Format.binary64 : ℤ) = 1023 := rfl
    have hbits : Format.mantissaBits Format.binary64 = 53 := rfl
    obtain ⟨E, hE, hexp⟩ : ∃ E : ℕ, (e + 1023 + ((52 : ℕ) : ℤ)).toNat = E ∧ e = E - 1075 :=
      ⟨_, rfl, by omega⟩
    rw [UnpackedFloat.pack]
    dsimp only
    rw [hbias, hbits, hE, if_neg (by omega)]
    -- a mantissa of 53 bits is stored without the first, a shorter one as it is
    by_cases hlarge : 2 ^ 52 ≤ m
    · have hlog : m.log2 + 1 = 53 := by
        have hle := (Nat.le_log2 hm.ne').mpr hlarge
        have hlt := (Nat.log2_lt hm.ne').mpr hm'
        omega
      rw [if_pos hlog, unpack_normal s (by omega) (by omega) hlarge hm' hm]
      simp only [hexp]
    · have hlog : ¬m.log2 + 1 = 53 := by
        have hlt := (Nat.log2_lt hm.ne').mpr (Nat.lt_of_not_le hlarge)
        omega
      obtain rfl : e = -1074 := by omega
      rw [if_neg hlog, unpack_subnormal s hm (Nat.lt_of_not_le hlarge)]

/-! ### Rounding what needs none -/

theorem log2_mul_two_pow {m : ℕ} (hm : 0 < m) (k : ℕ) : (m * 2 ^ k).log2 = m.log2 + k := by
  induction k with
  | zero => simp
  | succ k ih =>
    have hne : m * 2 ^ k ≠ 0 := (Nat.mul_pos hm (Nat.two_pow_pos k)).ne'
    rw [pow_succ', mul_left_comm, Nat.log2_two_mul hne, ih, add_assoc]

/-- A shift to the left with an exponent lowered by as much leaves the place of the leading bit. -/
theorem totalExponent_mul_two_pow {m : ℕ} (hm : 0 < m) (e : ℤ) (k : ℕ) :
    totalExponent (m * 2 ^ k) (e - k) = totalExponent m e := by
  rw [totalExponent, totalExponent, log2_mul_two_pow hm]
  push_cast
  ring

/-- A shift to the right undoes a shift to the left, and no bit is lost. -/
theorem repeat_shiftRightOne (m k : ℕ) :
    k.repeat ExtendedMantissa.shiftRightOne ⟨m * 2 ^ k, false, false⟩ = ⟨m, false, false⟩ := by
  induction k generalizing m with
  | zero => simp [Nat.repeat]
  | succ k ih =>
    -- the first of the shifts is undone last
    rw [Nat.repeat, pow_succ', ← mul_assoc, ih]
    simp [ExtendedMantissa.shiftRightOne]

/-- Mantissa and exponent of a finite value that is rounded.  It may be too large to be stored. -/
structure Rounded (m : ℕ) (e : ℤ) : Prop where
  mantissa_lt : m < 2 ^ 53
  le_exponent : -1074 ≤ e
  normal_or : 2 ^ 52 ≤ m ∨ e = -1074

section Rounding

variable {s : Sign} {m : ℕ} {e : ℤ} {hm : 0 < m}

theorem Canonical.rounded (h : Canonical (.finite s m e hm)) : Rounded m e := ⟨h.1, h.2.1, h.2.2.2⟩

/-- A rounded value has the exponent that rounding would give it. -/
theorem targetExponent_eq (hm : 0 < m) (h : Rounded m e) :
    Format.binary64.targetExponent (totalExponent m e) = e := by
  have hlt := h.mantissa_lt
  have hle := h.le_exponent
  have hlog : m.log2 < 53 := (Nat.log2_lt hm.ne').mpr hlt
  show max (((m.log2 : ℤ) + 1 + e) - (53 : ℕ)) (-1074) = e
  rcases h.normal_or with hnormal | rfl
  · have hlarge := (Nat.le_log2 hm.ne').mpr hnormal
    omega
  · omega

/-- The shift that precedes rounding takes back a shift to the left. -/
theorem shiftToTargetExponent_eq (hm : 0 < m) (h : Rounded m e) (k : ℕ) :
    shiftToTargetExponent Format.binary64 (m * 2 ^ k) (e - k) .exact = (⟨m, false, false⟩, e) := by
  have hshift : (e - (e - (k : ℤ))).toNat = k := by omega
  rw [shiftToTargetExponent, totalExponent_mul_two_pow hm, targetExponent_eq hm h]
  simp only [shiftToExponent, hshift]
  refine Prod.ext ?_ (sub_add_cancel e k)
  exact repeat_shiftRightOne m k

/-- Rounding takes back a shift. -/
theorem roundWithAccuracy_mul_two_pow (hm : 0 < m) (h : Rounded m e) (k : ℕ) :
    roundWithAccuracy Format.binary64 s (m * 2 ^ k) (e - k) .exact = .finite s m e hm := by
  have hfirst := shiftToTargetExponent_eq hm h k
  have hsecond := shiftToTargetExponent_eq hm h 0
  rw [pow_zero, mul_one, Nat.cast_zero, sub_zero] at hsecond
  have hround : (⟨m, false, false⟩ : ExtendedMantissa).roundedMantissa = m := rfl
  rw [roundWithAccuracy, hfirst]
  dsimp only
  rw [hround, hsecond]
  exact dif_neg hm.ne'

/-- The mantissa of a quotient of equal magnitudes has one bit more than there is room for, and
that bit is zero. -/
theorem divCore_self (hm : 0 < m) (e : ℤ) :
    divCore Format.binary64 m e m e = (2 ^ 52 * 2 ^ 1, -52 - 1, .exact) := by
  have htarget :
      min (e - e) (Format.binary64.targetExponent (totalExponent m e - totalExponent m e))
        = -53 := by
    rw [sub_self, sub_self]
    rfl
  have hshift : (e - e - -53).toNat = 53 := by omega
  have hmod : m <<< 53 % m = 0 := by
    rw [Nat.shiftLeft_eq, Nat.mul_mod_right]
  have hdiv : m <<< 53 / m = 2 ^ 53 := by
    rw [Nat.shiftLeft_eq, Nat.mul_div_cancel_left _ hm]
  rw [divCore, htarget, hshift, hmod, hdiv]
  rfl

/-- A finite value divided by its magnitude is one with its sign. -/
theorem div_magnitude (s : Sign) (hm : 0 < m) (e : ℤ) :
    UnpackedFloat.div Format.binary64 (.finite s m e hm) (.finite .positive m e hm)
      = .finite s (2 ^ 52) (-52) (by decide) := by
  have hsign : s / .positive = s := by cases s <;> rfl
  rw [UnpackedFloat.div, divCore_self hm, hsign]
  exact roundWithAccuracy_mul_two_pow (by decide) ⟨by decide, by decide, by decide⟩ 1

end Rounding

/-! ### Doubles -/

/-- The parts of a double. -/
def parts (a : Float) : UnpackedFloat := a.toModel.unpack

/-- The double that is stored for the given parts. -/
def ofParts (u : UnpackedFloat) : Float := .ofModel (Float.Model.pack u)

theorem canonical_parts (a : Float) : Canonical (parts a) := canonical_unpack _

/-- Storing canonical parts loses nothing. -/
theorem parts_ofParts {u : UnpackedFloat} (h : Canonical u) : parts (ofParts u) = u := unpack_pack h

theorem mul_eq (a b : Float) :
    a * b = ofParts (UnpackedFloat.mul Format.binary64 (parts a) (parts b)) := rfl

theorem div_eq (a b : Float) :
    a / b = ofParts (UnpackedFloat.div Format.binary64 (parts a) (parts b)) := rfl

theorem abs_eq (a : Float) : Arithmetic.abs a = ofParts (parts a).abs := rfl

theorem isFinite_eq (a : Float) : Arithmetic.isFinite a = (parts a).isFinite := rfl

theorem parts_one : parts 1 = .finite .positive (2 ^ 52) (-52) (by decide) := rfl

/-- Both zeros compare as equal to zero, and nothing else does. -/
theorem isZero_iff {a : Float} : Arithmetic.isZero a = true ↔ ∃ s, parts a = .zero s := by
  show (((parts a).compare (.zero .positive)) == some .eq) = true ↔ _
  rcases parts a with (_ | _) | _ | s | ⟨_ | _, m, e, hm⟩ <;> simp [UnpackedFloat.compare]

theorem exists_parts_eq_finite {a : Float} (h : Arithmetic.isZero a = false)
    (hfin : Arithmetic.isFinite a = true) : ∃ s m e hm, parts a = .finite s m e hm := by
  rw [isFinite_eq] at hfin
  rcases hparts : parts a with s | _ | s | ⟨s, m, e, hm⟩
  · rw [hparts] at hfin
    cases hfin
  · rw [hparts] at hfin
    cases hfin
  · rw [isZero_iff.mpr ⟨s, hparts⟩] at h
    cases h
  · exact ⟨s, m, e, hm, rfl⟩

theorem parts_abs (a : Float) : parts (Arithmetic.abs a) = (parts a).abs := by
  rw [abs_eq]
  have h := canonical_parts a
  generalize parts a = u at h ⊢
  rcases u with s | _ | s | ⟨s, m, e, hm⟩
  · exact parts_ofParts trivial
  · exact parts_ofParts trivial
  · exact parts_ofParts trivial
  · exact parts_ofParts h

theorem isFinite_abs (a : Float) :
    Arithmetic.isFinite (Arithmetic.abs a) = Arithmetic.isFinite a := by
  rw [isFinite_eq, isFinite_eq, parts_abs]
  rcases parts a with s | _ | s | ⟨s, m, e, hm⟩ <;> rfl

theorem isZero_abs (a : Float) : Arithmetic.isZero (Arithmetic.abs a) = Arithmetic.isZero a := by
  rw [Bool.eq_iff_iff, isZero_iff, isZero_iff, parts_abs]
  rcases parts a with s | _ | s | ⟨s, m, e, hm⟩ <;> simp [UnpackedFloat.abs]

/-- Both zeros have the magnitude zero. -/
theorem abs_of_isZero {a : Float} (h : Arithmetic.isZero a = true) : Arithmetic.abs a = 0 := by
  obtain ⟨s, hs⟩ := isZero_iff.mp h
  rw [abs_eq, hs]
  rfl

/-- A magnitude times one is that magnitude, an infinite or undefined one included. -/
theorem abs_mul_one (a : Float) : Arithmetic.abs a * 1 = Arithmetic.abs a := by
  rw [mul_eq, parts_abs, parts_one, abs_eq]
  have h := canonical_parts a
  generalize parts a = u at h ⊢
  rcases u with s | _ | s | ⟨s, m, e, hm⟩
  · rfl
  · rfl
  · rfl
  · exact congrArg ofParts (roundWithAccuracy_mul_two_pow hm h.rounded 52)

/-- A finite number other than zero, divided by its magnitude, is a unit. -/
theorem div_abs_mul_self {a : Float} (h : Arithmetic.isZero a = false)
    (hfin : Arithmetic.isFinite a = true) :
    a / Arithmetic.abs a * (a / Arithmetic.abs a) = 1 := by
  obtain ⟨s, m, e, hm, hparts⟩ := exists_parts_eq_finite h hfin
  have hquotient : a / Arithmetic.abs a = ofParts (.finite s (2 ^ 52) (-52) (by decide)) := by
    rw [div_eq, parts_abs, hparts]
    exact congrArg ofParts (div_magnitude s hm e)
  rw [hquotient]
  -- one or minus one, and either has the square one
  cases s
  · decide +kernel
  · decide +kernel

/-! ### Differences and quotients that are zero -/

/-- A finite number minus itself is the positive zero. -/
theorem sub_self {a : Float} (h : Arithmetic.isFinite a = true) : a - a = 0 := by
  have hsub : a - a = ofParts (UnpackedFloat.sub Format.binary64 (parts a) (parts a)) := rfl
  rw [isFinite_eq] at h
  rw [hsub]
  generalize parts a = u at h ⊢
  rcases u with s | _ | s | ⟨s, m, e, hm⟩
  · cases h
  · cases h
  · cases s <;> rfl
  · -- the mantissas cancel, and the sign of an exact zero is positive
    simp only [UnpackedFloat.sub, Int.sub_self, UnpackedFloat.normalize]
    rfl

/-- A rounded value is stored as it is or as an infinity. -/
theorem parts_ofParts_of_rounded (s : Sign) {m : ℕ} {e : ℤ} (hm : 0 < m) (h : Rounded m e) :
    parts (ofParts (.finite s m e hm)) = .finite s m e hm
      ∨ parts (ofParts (.finite s m e hm)) = .infinity s := by
  rcases le_or_gt e 971 with hle | hlt
  · exact .inl (parts_ofParts ⟨h.mantissa_lt, h.le_exponent, hle, h.normal_or⟩)
  · have hbias : (Format.exponentBias Format.binary64 : ℤ) = 1023 := rfl
    have hpack : UnpackedFloat.pack Format.binary64 (.finite s m e hm)
        = packedInfinity Format.binary64 s := by
      rw [UnpackedFloat.pack]
      dsimp only
      rw [hbias]
      -- the exponent has all its bits set or does not fit into them
      apply if_pos
      show 2 ^ 11 ≤ (e + 1023 + ((52 : ℕ) : ℤ)).toNat + 1
      omega
    right
    show unpack Format.binary64 (UnpackedFloat.pack Format.binary64 _) = _
    rw [hpack]
    cases s <;> rfl

theorem parts_two : parts (Arithmetic.ofNat 2) = .finite .positive (2 ^ 52) (-51) (by decide) := rfl

/-- Twice a finite number other than zero is one as well, or infinite. -/
theorem parts_two_mul {a : Float} (h : Arithmetic.isZero a = false)
    (hfin : Arithmetic.isFinite a = true) :
    (∃ s m e hm, parts (Arithmetic.ofNat 2 * a) = .finite s m e hm)
      ∨ ∃ s, parts (Arithmetic.ofNat 2 * a) = .infinity s := by
  obtain ⟨s, m, e, hm, hparts⟩ := exists_parts_eq_finite h hfin
  have hcanonical : Canonical (.finite s m e hm) := hparts ▸ canonical_parts a
  -- the exponent is one more, or the mantissa of a subnormal number is doubled
  obtain ⟨m', e', k, hm', hrounded, hmantissa, hexponent⟩ : ∃ (m' : ℕ) (e' : ℤ) (k : ℕ),
      0 < m' ∧ Rounded m' e' ∧ 2 ^ 52 * m = m' * 2 ^ k ∧ -51 + e = e' - k := by
    obtain ⟨hlt, hle, -, hnormal⟩ := hcanonical
    by_cases hlarge : 2 ^ 52 ≤ m
    · exact ⟨m, e + 1, 52, hm, ⟨hlt, by omega, .inl hlarge⟩, by omega, by omega⟩
    · exact ⟨2 * m, -1074, 51, by omega, ⟨by omega, le_rfl, .inr rfl⟩, by omega, by omega⟩
  have hmul : Arithmetic.ofNat 2 * a = ofParts (.finite (.positive * s) m' e' hm') := by
    rw [mul_eq, parts_two, hparts, UnpackedFloat.mul, hmantissa, hexponent,
      roundWithAccuracy_mul_two_pow hm' hrounded]
  rw [hmul]
  exact (parts_ofParts_of_rounded _ hm' hrounded).imp (fun h => ⟨_, _, _, _, h⟩) fun h => ⟨_, h⟩

/-- Zero divided by a finite number other than zero or by an infinity. -/
theorem isZero_zero_div {a : Float}
    (h : (∃ s m e hm, parts a = .finite s m e hm) ∨ ∃ s, parts a = .infinity s) :
    Arithmetic.isZero (0 / a) = true := by
  have hzero : parts 0 = .zero .positive := rfl
  obtain ⟨s, hdiv⟩ :
      ∃ s, UnpackedFloat.div Format.binary64 (.zero .positive) (parts a) = .zero s := by
    rcases h with ⟨s, m, e, hm, hparts⟩ | ⟨s, hparts⟩
    · rw [hparts]
      exact ⟨.positive / s, rfl⟩
    · rw [hparts]
      exact ⟨.positive / s, rfl⟩
  rw [div_eq, hzero, hdiv]
  exact isZero_iff.mpr ⟨s, parts_ofParts trivial⟩

end NewtonMethod.Double
