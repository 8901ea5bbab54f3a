/-
NewtonMethod/Proofs/RoundedNorm.lean

How large the norm of finite doubles can be.

The coordinates are divided by the largest magnitude `m` among them, so the squares
that are added are between zero and one, and one of them is one (`InUnit`).  Their
sum cannot overflow.  A sum of at most `2⁵³` of them is at most their number.  More
of them do not get the sum further than `2⁵⁴`, from where on a number that is one
larger is rounded back; so each of the eight lanes stays below `2⁵⁴`, whatever the
length, and the sum below `2⁶⁰`.  This is `SumOf`, which goes along with an addition
(`SumOf.add`, `SumOf.concat`) and so with the summations.

The norm is `m · ρ`, rounded, where the root `ρ` of that sum is one at least and

    ρ ≤ 2ᵏ    for    n ≤ 4ᵏ  and  k ≤ 26,  or  k = 30    (`BoundsGrowth n k`)

So the norm is not less than any magnitude and at most `2ᵏ` times the largest one.
It is finite exactly if `m · ρ` is in range, which `2ᵏ · m` in range is enough for
(`NormBounds`).  But not always: the last multiplication overflows for coordinates
near the end of the range (`norm_overflows`).  Main result: `norm_bounds`.
-/
import Mathlib
import NewtonMethod.Space.Scalar
import NewtonMethod.Space.Column
import NewtonMethod.Space.Fixed
import NewtonMethod.Proofs.EuclideanNorm
import NewtonMethod.Proofs.RoundedOperations

namespace NewtonMethod

open Double

namespace Double

variable {a b p : Float} {s t : Multiset Float} {ps : List Float} {j k : ℕ}

/-! ### Sums -/

/-- A number from zero to one. -/
structure InUnit (p : Float) : Prop where
  hasSign : HasSign .positive (parts p)
  size_le_one : size p ≤ 1

/-- The number `a` is a rounded sum of the numbers `s` from zero to one, at most `2ʲ`. -/
structure SumOf (s : Multiset Float) (j : ℕ) (a : Float) : Prop where
  hasSign : HasSign .positive (parts a)
  size_le_two_pow : size a ≤ 2 ^ j
  size_le_card : s.card ≤ 2 ^ 53 → size a ≤ s.card
  le_size : ∀ p ∈ s, size p ≤ size a

namespace SumOf

theorem zero (j : ℕ) : SumOf 0 j 0 where
  hasSign := hasSign_zero
  size_le_two_pow := size_zero.trans_le (by positivity)
  size_le_card _ := by simp [size_zero]
  le_size p hp := absurd hp (Multiset.notMem_zero p)

theorem singleton (hp : InUnit p) (j : ℕ) : SumOf {p} j p where
  hasSign := hp.hasSign
  size_le_two_pow := hp.size_le_one.trans (one_le_pow₀ one_le_two)
  size_le_card _ := by simpa using hp.size_le_one
  le_size q hq := by rw [Multiset.mem_singleton.mp hq]

theorem mono (h : SumOf s j a) (hjk : j ≤ k) : SumOf s k a :=
  { h with size_le_two_pow := h.size_le_two_pow.trans (pow_le_pow_right₀ one_le_two hjk) }

/-- What an addition keeps, given that the sum is at most a power of two. -/
theorem of_rounds (ha : SumOf s j a) (hb : SumOf t j b) (hfin : Arithmetic.isFinite (a + b) = true)
    (hle : size (a + b) ≤ 2 ^ k) : SumOf (s + t) k (a + b) := by
  have hround := rounds_add ha.hasSign hb.hasSign
  refine ⟨hround.hasSign hfin, hle, fun hcard => ?_, fun p hp => ?_⟩
  · rw [Multiset.card_add] at hcard ⊢
    refine hround.size_le hfin (representable_natCast hcard) ?_
    push_cast
    exact add_le_add (ha.size_le_card (by omega)) (hb.size_le_card (by omega))
  · -- a term is not larger than its own sum, and the other sum is not negative
    rcases Multiset.mem_add.mp hp with hp | hp
    · refine (ha.le_size p hp).trans (hround.le_size hfin (representable_size a) ?_)
      exact le_add_of_nonneg_right (size_nonneg b)
    · refine (hb.le_size p hp).trans (hround.le_size hfin (representable_size b) ?_)
      exact le_add_of_nonneg_left (size_nonneg a)

/-- An addition of two sums doubles the bound, and it does not overflow. -/
theorem add (ha : SumOf s j a) (hb : SumOf t j b) (hj : j < 1023) :
    SumOf (s + t) (j + 1) (a + b) := by
  have hround := rounds_add ha.hasSign hb.hasSign
  have hsum : size a + size b ≤ 2 ^ (j + 1) := by
    rw [pow_succ]
    linarith [ha.size_le_two_pow, hb.size_le_two_pow]
  obtain ⟨hfin, hle⟩ := hround.isFinite_and_size_le (representable_two_pow (j + 1)) hsum
    (two_pow_lt_overflowBound hj)
  exact ha.of_rounds hb hfin hle

/-- From `2⁵⁴` on one more does not count. -/
theorem concat (ha : SumOf s j a) (hp : InUnit p) (hj : 54 ≤ j) (hj' : j < 1023) :
    SumOf (s + {p}) j (a + p) := by
  have hround := rounds_add ha.hasSign hp.hasSign
  have hsum : size a + size p ≤ 2 ^ j + 1 := add_le_add ha.size_le_two_pow hp.size_le_one
  have hdouble : (2 : ℝ) ^ j + 1 ≤ 2 ^ (j + 1) := by
    rw [pow_succ]
    linarith [one_le_pow₀ one_le_two (a := (2 : ℝ)) (n := j)]
  have hfin := hround.isFinite_iff.mpr
    ((hsum.trans hdouble).trans_lt (two_pow_lt_overflowBound hj'))
  refine ha.of_rounds (singleton hp j) hfin ?_
  rcases le_or_gt (size a + size p) (2 ^ j) with hle | hlt
  · exact hround.size_le hfin (representable_two_pow j) hle
  · -- the power of two is closer than any larger number
    have hnear := hround.abs_sub_le hfin _ (representable_two_pow j)
    rw [abs_of_neg (sub_neg.mpr hlt)] at hnear
    by_contra hgt
    have hgap := (representable_size (a + p)).add_four_le hj (not_le.mp hgt)
    linarith [le_abs_self (size (a + p) - (size a + size p))]

/-- A lane may be as long as it likes. -/
theorem concat_lane (ha : SumOf s 54 a) (hp : InUnit p) : SumOf (s + {p}) 54 (a + p) :=
  ha.concat hp le_rfl (by decide)

theorem foldl (ha : SumOf s j a) (hps : ∀ p ∈ ps, InUnit p) (hj : 54 ≤ j) (hj' : j < 1023) :
    SumOf (s + ps) j (ps.foldl (· + ·) a) := by
  induction ps generalizing s a with
  | nil => simpa using ha
  | cons p ps ih =>
    rw [List.forall_mem_cons] at hps
    have hsum := ih (ha.concat hps.1 hj hj') hps.2
    rwa [add_assoc, Multiset.singleton_add, Multiset.cons_coe] at hsum

end SumOf

end Double

namespace Norm

variable {xs ps : List Float} {j k n : ℕ}

/-! ### The two summations -/

/-- What the eight lanes have added up, and what is still to come, is the sum in the end. -/
theorem sumOf_lanes {s0 s1 s2 s3 s4 s5 s6 s7 : Multiset Float} {a0 a1 a2 a3 a4 a5 a6 a7 : Float}
    (h0 : SumOf s0 54 a0) (h1 : SumOf s1 54 a1) (h2 : SumOf s2 54 a2) (h3 : SumOf s3 54 a3)
    (h4 : SumOf s4 54 a4) (h5 : SumOf s5 54 a5) (h6 : SumOf s6 54 a6) (h7 : SumOf s7 54 a7)
    (hps : ∀ p ∈ ps, InUnit p) :
    SumOf (s0 + s4 + (s1 + s5) + (s2 + s6) + (s3 + s7) + ps) 60
      (lanes a0 a1 a2 a3 a4 a5 a6 a7 ps) := by
  fun_induction lanes a0 a1 a2 a3 a4 a5 a6 a7 ps generalizing s0 s1 s2 s3 s4 s5 s6 s7 with
  | case1 a0 a1 a2 a3 a4 a5 a6 a7 p0 p1 p2 p3 p4 p5 p6 p7 rest ih =>
    simp only [List.forall_mem_cons] at hps
    obtain ⟨hp0, hp1, hp2, hp3, hp4, hp5, hp6, hp7, hrest⟩ := hps
    have hsum := ih (h0.concat_lane hp0) (h1.concat_lane hp1) (h2.concat_lane hp2)
      (h3.concat_lane hp3) (h4.concat_lane hp4) (h5.concat_lane hp5) (h6.concat_lane hp6)
      (h7.concat_lane hp7) hrest
    simp only [← Multiset.cons_coe, ← Multiset.singleton_add]
    convert hsum using 1
    abel
  | case2 a0 a1 a2 a3 a4 a5 a6 a7 rest =>
    -- each addition of two lanes, and of their sum to what is there, may double the bound
    have h04 := (SumOf.zero 55).add (h0.add h4 (by decide)) (by decide)
    have h15 := h04.add ((h1.add h5 (by decide)).mono (by decide)) (by decide)
    have h26 := h15.add ((h2.add h6 (by decide)).mono (by decide)) (by decide)
    have h37 := h26.add ((h3.add h7 (by decide)).mono (by decide)) (by decide)
    rw [zero_add] at h37
    exact (h37.foldl hps (by decide) (by decide)).mono (by decide)

theorem sumOf_interleavedSum (hps : ∀ p ∈ ps, InUnit p) : SumOf ps 60 (interleavedSum ps) := by
  have hzero := SumOf.zero 54
  rw [interleavedSum]
  simpa using sumOf_lanes hzero hzero hzero hzero hzero hzero hzero hzero hps

/-- The sum of the short lists, in the order in which it is made. -/
theorem sumOf_shortSum (hps : ∀ p ∈ ps, InUnit p) : SumOf ps 60 (shortSum ps) := by
  fun_cases shortSum ps with
  | case1 p0 p1 =>
    simp only [List.forall_mem_cons] at hps
    obtain ⟨h0, h1, -⟩ := hps
    exact ((SumOf.singleton h0 54).concat_lane h1).mono (by decide)
  | case2 p0 p1 p2 =>
    simp only [List.forall_mem_cons] at hps
    obtain ⟨h0, h1, h2, -⟩ := hps
    exact (((SumOf.singleton h0 54).concat_lane h1).concat_lane h2).mono (by decide)
  | case3 p0 p1 p2 p3 =>
    simp only [List.forall_mem_cons] at hps
    obtain ⟨h0, h1, h2, h3, -⟩ := hps
    have h02 := (SumOf.singleton h0 54).concat_lane h2
    have h13 := (SumOf.singleton h1 54).concat_lane h3
    have hsum := (h02.add h13 (by decide)).mono (k := 60) (by decide)
    convert hsum using 1
    simp only [← Multiset.cons_coe, ← Multiset.singleton_add]
    abel
  | case4 ps => exact sumOf_interleavedSum hps

/-! ### The largest magnitude -/

/-- The number `m` is the largest of the magnitudes `xs`, zero if there are none. -/
structure IsLargest (xs : List Float) (m : Float) : Prop where
  hasSign : HasSign .positive (parts m)
  size_le : ∀ x ∈ xs, size x ≤ size m
  attained : (∃ x ∈ xs, size x = size m) ∨ xs = [] ∧ size m = 0

theorem isLargest_singleton {x : Float} (hx : Arithmetic.isFinite x = true) :
    IsLargest [x] (Arithmetic.abs x) where
  hasSign := hasSign_abs hx
  size_le y hy := by rw [List.mem_singleton.mp hy, size_abs]
  attained := .inl ⟨x, List.mem_singleton_self x, (size_abs x).symm⟩

/-- The larger one of the largest and another magnitude is the largest of all. -/
theorem IsLargest.larger {m x : Float} (hm : IsLargest ps m) (hx : Arithmetic.isFinite x = true) :
    IsLargest (ps ++ [x]) (Arithmetic.larger m (Arithmetic.abs x)) := by
  have hle := le_iff_size_le (hasSign_abs hx) hm.hasSign
  have hlast : x ∈ ps ++ [x] := List.mem_append_right _ (List.mem_singleton_self x)
  rw [size_abs] at hle
  rw [Arithmetic.larger]
  split
  next hsmaller =>
    rw [hle] at hsmaller
    refine ⟨hm.hasSign, ?_, .inl ?_⟩
    · simp only [List.forall_mem_append, List.forall_mem_singleton]
      exact ⟨hm.size_le, hsmaller⟩
    · -- the largest so far is attained, or all there is so far is nothing, and then `x` is zero too
      rcases hm.attained with ⟨y, hy, hsize⟩ | ⟨-, hzero⟩
      · exact ⟨y, List.mem_append_left _ hy, hsize⟩
      · exact ⟨x, hlast, le_antisymm hsmaller (hzero.trans_le (size_nonneg x))⟩
  next hlarger =>
    rw [hle, not_le] at hlarger
    refine ⟨hasSign_abs hx, ?_, .inl ⟨x, hlast, (size_abs x).symm⟩⟩
    simp only [List.forall_mem_append, List.forall_mem_singleton, size_abs]
    exact ⟨fun y hy => (hm.size_le y hy).trans hlarger.le, le_rfl⟩

/-- The induction is on the magnitudes that are left; those seen so far stand first in the list. -/
theorem IsLargest.foldl {m : Float} (hm : IsLargest ps m)
    (hxs : ∀ x ∈ xs, Arithmetic.isFinite x = true) :
    IsLargest (ps ++ xs) (xs.foldl (fun acc y => Arithmetic.larger acc (Arithmetic.abs y)) m) := by
  induction xs generalizing ps m with
  | nil => simpa using hm
  | cons x xs ih =>
    rw [List.forall_mem_cons] at hxs
    have hrest := ih (hm.larger hxs.1) hxs.2
    rwa [List.append_assoc, List.singleton_append] at hrest

/-- The fold finds the largest magnitude. -/
theorem isLargest_largest (hxs : ∀ x ∈ xs, Arithmetic.isFinite x = true) :
    IsLargest xs (largest xs) := by
  -- the fold starts from the first magnitude
  rcases xs with - | ⟨x, xs⟩
  · exact ⟨hasSign_zero, fun x hx => absurd hx List.not_mem_nil, .inr ⟨rfl, size_zero⟩⟩
  · rw [List.forall_mem_cons] at hxs
    exact (isLargest_singleton hxs.1).foldl hxs.2

/-! ### The norm -/

/-- The norm of `n` numbers is at most `2ᵏ` times the largest magnitude. -/
def BoundsGrowth (n k : ℕ) : Prop := k ≤ 26 ∧ n ≤ 4 ^ k ∨ k = 30

/-- The double `length` is the number `m · ρ`, rounded, where `ρ` is at least one and at most as
large as the norm of `n` numbers allows. -/
structure Stretches (n : ℕ) (m : Float) (ρ : ℝ) (length : Float) : Prop where
  rounds : Rounds .positive (size m * ρ) length
  one_le : 1 ≤ ρ
  le_two_pow : ∀ k, BoundsGrowth n k → ρ ≤ 2 ^ k

/-- The square of a number up to one is from zero to one, and that of one is one. -/
theorem inUnit_square {u : Float} (hu : Arithmetic.isFinite u = true) (hle : size u ≤ 1) :
    InUnit (u * u) ∧ (size u = 1 → 1 ≤ size (u * u)) := by
  obtain ⟨s, hs⟩ := isFinite_iff.mp hu
  have hround := rounds_mul hs hs
  have hsign : s * s = .positive := by cases s <;> rfl
  obtain ⟨hfin, hle⟩ := hround.isFinite_and_size_le representable_one
    (mul_le_one₀ hle (size_nonneg u) hle) one_lt_overflowBound
  refine ⟨⟨hsign ▸ hround.hasSign hfin, hle⟩, fun hone => ?_⟩
  exact hround.le_size hfin representable_one (by rw [hone, one_mul])

/-- A number divided by one that is not smaller is at most one, and it is one for equal sizes. -/
theorem size_div_le_one {x m : Float} (hx : Arithmetic.isFinite x = true)
    (hm : HasSign .positive (parts m)) (hne : Arithmetic.isZero m = false)
    (hle : size x ≤ size m) :
    Arithmetic.isFinite (x / m) = true ∧ size (x / m) ≤ 1 ∧
      (size x = size m → size (x / m) = 1) := by
  obtain ⟨s, hs⟩ := isFinite_iff.mp hx
  have hround := rounds_div hs hm hne
  have hpos : 0 < size m := by
    rw [← Bool.not_eq_true, isZero_iff_size_le hm.isFinite, not_le] at hne
    exact (two_zpow_pos _).trans hne
  obtain ⟨hfin, hle'⟩ := hround.isFinite_and_size_le representable_one
    ((div_le_one hpos).mpr hle) one_lt_overflowBound
  refine ⟨hfin, hle', fun heq => le_antisymm hle' (hround.le_size hfin representable_one ?_)⟩
  rw [heq, div_self hpos.ne']

/-- The squares that are added. -/
def squares (xs : List Float) : List Float := (xs.map (· / largest xs)).map fun u => u * u

theorem length_squares (xs : List Float) : (squares xs).length = xs.length := by
  rw [squares, List.length_map, List.length_map]

/-- The squares are from zero to one, and that of the largest coordinate is one. -/
theorem inUnit_squares (hxs : ∀ x ∈ xs, Arithmetic.isFinite x = true)
    (hzero : Arithmetic.isZero (largest xs) = false) :
    (∀ q ∈ squares xs, InUnit q) ∧ ∃ q ∈ squares xs, 1 ≤ size q := by
  have hlargest := isLargest_largest hxs
  have hquotient {x : Float} (hx : x ∈ xs) :=
    size_div_le_one (hxs x hx) hlargest.hasSign hzero (hlargest.size_le x hx)
  constructor
  · simp only [squares, List.forall_mem_map]
    intro x hx
    obtain ⟨hfin, hle, -⟩ := hquotient hx
    exact (inUnit_square hfin hle).1
  · obtain ⟨x, hx, hsize⟩ : ∃ x ∈ xs, size x = size (largest xs) := by
      refine hlargest.attained.resolve_right fun hnil => ?_
      rw [← Bool.not_eq_true, isZero_iff_size_le hlargest.hasSign.isFinite, hnil.2, not_le] at hzero
      exact absurd hzero (two_zpow_pos _).not_gt
    obtain ⟨hfin, hle, hone⟩ := hquotient hx
    exact ⟨_, List.mem_map_of_mem (List.mem_map_of_mem hx), (inUnit_square hfin hle).2 (hone hsize)⟩

/-- A root of a sum of squares. -/
theorem size_root_le {s : Multiset Float} {a : Float} (ha : SumOf s 60 a)
    (hk : BoundsGrowth s.card k) :
    Arithmetic.isFinite (Arithmetic.sqrt a) = true ∧ size (Arithmetic.sqrt a) ≤ 2 ^ k := by
  have hsum : size a ≤ (2 ^ k) ^ 2 := by
    -- few squares sum up to their number, and many to no more than `2 ^ 60`
    rcases hk with ⟨hk, hcard⟩ | rfl
    · have hfour : 4 ^ k ≤ 2 ^ 53 :=
        (Nat.pow_le_pow_right (by decide) hk).trans (by decide)
      calc size a ≤ s.card := ha.size_le_card (hcard.trans hfour)
        _ ≤ (4 ^ k : ℕ) := Nat.cast_le.mpr hcard
        _ = (2 ^ k) ^ 2 := by
          push_cast
          rw [← pow_mul, mul_comm, pow_mul]
          norm_num
    · exact ha.size_le_two_pow.trans_eq (by norm_num)
  have hk' : k ≤ 1023 := by
    rcases hk with ⟨hk, -⟩ | rfl
    · omega
    · decide
  exact (rounds_sqrt ha.hasSign).isFinite_and_size_le (representable_two_pow k)
    ((Real.sqrt_le_left (by positivity)).mpr hsum) (two_pow_lt_overflowBound hk')

theorem scaled_of_isZero_eq_false (sum : List Float → Float)
    (hxs : ∀ x ∈ xs, Arithmetic.isFinite x = true)
    (hzero : Arithmetic.isZero (largest xs) = false) :
    scaled sum xs = largest xs * Arithmetic.sqrt (sum (squares xs)) := by
  have hfin := (isLargest_largest hxs).hasSign.isFinite
  rw [scaled, squares]
  simp only [hzero, hfin, Bool.not_true, Bool.or_self, Bool.false_eq_true, if_false]

/-- The root of the sum of the squares as it is computed, one if the coordinates are zero. -/
noncomputable def growth (sum : List Float → Float) (xs : List Float) : ℝ :=
  if Arithmetic.isZero (largest xs) then 1 else size (Arithmetic.sqrt (sum (squares xs)))

/-- The norm stretches the largest magnitude by the root of a sum of squares. -/
theorem stretches_scaled {sum : List Float → Float}
    (hsum : ∀ qs : List Float, (∀ q ∈ qs, InUnit q) → SumOf qs 60 (sum qs))
    (hxs : ∀ x ∈ xs, Arithmetic.isFinite x = true) :
    Stretches xs.length (largest xs) (growth sum xs) (scaled sum xs) := by
  have hlargest := (isLargest_largest hxs).hasSign
  rw [growth]
  split
  -- coordinates that are all zero have the norm zero, which nothing stretches
  next hzero =>
    have hscaled : scaled sum xs = largest xs := by
      rw [scaled]
      simp only [hzero, Bool.true_or, if_true]
    refine ⟨?_, le_rfl, fun k _ => one_le_pow₀ one_le_two⟩
    rw [hscaled, mul_one]
    exact rounds_size hlargest
  next hzero =>
    rw [Bool.not_eq_true] at hzero
    obtain ⟨hunit, q, hq, hone⟩ := inUnit_squares hxs hzero
    have htotal := hsum (squares xs) hunit
    have hround := rounds_sqrt htotal.hasSign
    obtain ⟨hroot, -⟩ := size_root_le htotal (.inr rfl)
    rw [scaled_of_isZero_eq_false sum hxs hzero]
    refine ⟨rounds_mul hlargest (hround.hasSign hroot), ?_, fun k hk => ?_⟩
    · refine hround.le_size hroot representable_one (Real.one_le_sqrt.mpr ?_)
      exact hone.trans (htotal.le_size q hq)
    · refine (size_root_le htotal ?_).2
      rwa [Multiset.coe_card, length_squares]

/-! ### Bounds -/

/-- What holds of the norm `length` of the numbers `xs`, the largest of which is multiplied by `ρ`:
it is finite exactly if that product is in range, it is a number that no magnitude exceeds, and it
is at most `2ᵏ` times the largest one. -/
structure NormBounds (xs : List Float) (ρ : ℝ) (length : Float) : Prop where
  one_le : 1 ≤ ρ
  le_two_pow : ∀ k, BoundsGrowth xs.length k → ρ ≤ 2 ^ k
  isFinite_iff : Arithmetic.isFinite length = true ↔ ∀ x ∈ xs, size x * ρ < overflowBound
  number : HasSign .positive (parts length) ∨ parts length = .infinity .positive
  le : ∀ x ∈ xs, Arithmetic.le (Arithmetic.abs x) length = true
  size_le : ∀ k, BoundsGrowth xs.length k → xs ≠ [] → Arithmetic.isFinite length = true →
    ∃ x ∈ xs, size length ≤ size x * 2 ^ k

/-- If the coordinates leave enough room, the norm is finite. -/
theorem NormBounds.isFinite_of_lt {ρ : ℝ} {length : Float} (h : NormBounds xs ρ length)
    (hk : BoundsGrowth xs.length k) (hrange : ∀ x ∈ xs, size x * 2 ^ k < overflowBound) :
    Arithmetic.isFinite length = true := by
  refine h.isFinite_iff.mpr fun x hx => lt_of_le_of_lt ?_ (hrange x hx)
  exact mul_le_mul_of_nonneg_left (h.le_two_pow k hk) (size_nonneg x)

/-- What the norm stretches is the largest magnitude, so the bounds hold for all of them. -/
theorem Stretches.normBounds {m length : Float} {ρ : ℝ} (h : Stretches xs.length m ρ length)
    (hm : IsLargest xs m) (hxs : ∀ x ∈ xs, Arithmetic.isFinite x = true) :
    NormBounds xs ρ length := by
  obtain ⟨hround, hone, hgrowth⟩ := h
  refine ⟨hone, hgrowth, ?_, hround.hasSign_or, fun x hx => ?_, fun k hk hne hfin => ?_⟩
  · rw [hround.isFinite_iff]
    constructor
    · intro hrange x hx
      refine lt_of_le_of_lt ?_ hrange
      exact mul_le_mul_of_nonneg_right (hm.size_le x hx) (zero_le_one.trans hone)
    · intro hrange
      -- the largest magnitude is one of those, or there are none and it is zero
      rcases hm.attained with ⟨x, hx, hsize⟩ | ⟨-, hzero⟩
      · rw [← hsize]
        exact hrange x hx
      · rw [hzero, zero_mul]
        exact (size_nonneg m).trans_lt (size_lt_overflowBound m)
  · have hx' := hasSign_abs (hxs x hx)
    rcases hround.hasSign_or with hsign | hinf
    · rw [le_iff_size_le hx' hsign, size_abs]
      refine (hm.size_le x hx).trans (hround.le_size hsign.isFinite (representable_size m) ?_)
      exact le_mul_of_one_le_right (size_nonneg m) hone
    · exact le_of_parts_eq_infinity hx' hinf
  · obtain ⟨x, hx, hsize⟩ := hm.attained.resolve_right fun hnil => hne hnil.1
    refine ⟨x, hx, hround.size_le hfin ((representable_size x).mul_two_pow k) ?_⟩
    rw [hsize]
    exact mul_le_mul_of_nonneg_left (hgrowth k hk) (size_nonneg m)

theorem normBounds_number {x : Float} (hx : Arithmetic.isFinite x = true) :
    NormBounds [x] 1 (Arithmetic.abs x) := by
  have hfin : ∀ y ∈ [x], Arithmetic.isFinite y = true := by
    rwa [List.forall_mem_singleton]
  refine Stretches.normBounds ⟨?_, le_rfl, fun k _ => ?_⟩ (isLargest_singleton hx) hfin
  · rw [mul_one]
    exact rounds_size (hasSign_abs hx)
  · exact one_le_pow₀ one_le_two

theorem normBounds_column {x : Array Float} (hx : PointSpace.isFinite x = true) :
    NormBounds x.toList (growth interleavedSum x.toList) (PointSpace.norm x) := by
  have hfin : ∀ a ∈ x.toList, Arithmetic.isFinite a = true :=
    List.all_eq_true.mp (Array.all_toList.trans hx)
  exact (stretches_scaled (fun _ => sumOf_interleavedSum) hfin).normBounds
    (isLargest_largest hfin) hfin

theorem normBounds_fixed {n : ℕ} {x : Vector Float n} (hx : PointSpace.isFinite x = true) :
    NormBounds x.toList (growth shortSum x.toList) (PointSpace.norm x) := by
  have hfin : ∀ a ∈ x.toList, Arithmetic.isFinite a = true :=
    List.all_eq_true.mp (Vector.all_toList.trans hx)
  exact (stretches_scaled (fun _ => sumOf_shortSum) hfin).normBounds (isLargest_largest hfin) hfin

end Norm

open NewtonMethod.Norm

/-- **When the norm of finite coordinates is finite.**  A number, and a list of any length of either
kind: the norm is never `nan` and not less than any magnitude.  That of a number is always finite,
and that of a list exactly if every magnitude times the root of the sum of the squares is in
range. -/
theorem norm_bounds {n : ℕ} (a : Float) (x : Array Float) (v : Vector Float n) :
    (PointSpace.isFinite a = true →
      NormBounds [a] 1 (PointSpace.norm a) ∧ Arithmetic.isFinite (PointSpace.norm a) = true) ∧
    (PointSpace.isFinite x = true →
      NormBounds x.toList (growth interleavedSum x.toList) (PointSpace.norm x)) ∧
    (PointSpace.isFinite v = true →
      NormBounds v.toList (growth shortSum v.toList) (PointSpace.norm v)) := by
  refine ⟨fun ha => ⟨normBounds_number ha, ?_⟩, normBounds_column, normBounds_fixed⟩
  exact (hasSign_abs ha).isFinite

/-- The squares of the coordinates are out of range, their norm is not. -/
theorem norm_bounds_threeFour :
    (∀ x ∈ [(3e307 : Float), 4e307], size x * 2 ^ 1 < overflowBound)
      ∧ BoundsGrowth 2 1
      ∧ Arithmetic.isFinite ((4e307 : Float) * 4e307) = false
      ∧ Arithmetic.isFinite (PointSpace.norm (#[3e307, 4e307] : Array Float)) = true
      ∧ Arithmetic.le (Arithmetic.abs 4e307)
        (PointSpace.norm (#[3e307, 4e307] : Array Float)) = true
      ∧ Arithmetic.isFinite (PointSpace.norm (#v[3e307, 4e307] : Vector Float 2)) = true
      ∧ Arithmetic.isFinite (PointSpace.norm (4e307 : Float)) = true := by
  have hrange : ∀ x ∈ [(3e307 : Float), 4e307], size x * 2 ^ 1 < overflowBound := by
    have hpower {x : Float} (hx : Config.isPositive x = true)
        (hle : Arithmetic.le x (ofParts (.finite .positive (2 ^ 52) 970 (by decide))) = true) :
        size x * 2 ^ 1 < overflowBound := by
      have hsize := size_le_of_le (by decide) hx ⟨by decide, by decide, by decide, .inl le_rfl⟩ hle
      have htwice : ((2 ^ 52 : ℕ) : ℝ) * 2 ^ (970 : ℤ) * 2 ^ 1 = 2 ^ 1023 := by
        rw [show (970 : ℤ) = (970 : ℕ) by rfl, zpow_natCast, Nat.cast_pow, Nat.cast_ofNat,
          ← pow_add, ← pow_add]
      refine lt_of_le_of_lt ?_ (two_pow_lt_overflowBound le_rfl)
      rw [← htwice]
      exact mul_le_mul_of_nonneg_right hsize (by positivity)
    rw [List.forall_mem_cons, List.forall_mem_singleton]
    exact ⟨hpower (by decide +kernel) (by decide +kernel),
      hpower (by decide +kernel) (by decide +kernel)⟩
  have hgrowth : BoundsGrowth 2 1 := .inl (by decide)
  obtain ⟨hnumber, hcolumn, hfixed⟩ := norm_bounds 4e307 #[3e307, 4e307] #v[3e307, 4e307]
  have hbounds := hcolumn (by decide +kernel)
  exact ⟨hrange, hgrowth, by decide +kernel, hbounds.isFinite_of_lt hgrowth hrange,
    hbounds.le 4e307 (by simp), (hfixed (by decide +kernel)).isFinite_of_lt hgrowth hrange,
    (hnumber (by decide +kernel)).2⟩

/-- Two doubles whose norm is in range: the sum of their squares is below that of the bound. -/
def nearBound : Array Float := #[1.5092224987112702e308, 9.76702644879602e307]

/-- The rounded norm of these coordinates overflows in the last multiplication. -/
theorem norm_overflows :
    PointSpace.isFinite nearBound = true
      ∧ (nearBound.toList.map fun a => size a ^ 2).sum < overflowBound ^ 2
      ∧ Arithmetic.isFinite (PointSpace.norm nearBound) = false
      ∧ ¬∀ x : Array Float, PointSpace.isFinite x = true →
          Arithmetic.isFinite (PointSpace.norm x) = true := by
  have hfin : PointSpace.isFinite nearBound = true := by decide +kernel
  have hnorm : Arithmetic.isFinite (PointSpace.norm nearBound) = false := by decide +kernel
  refine ⟨hfin, ?_, hnorm, fun hall => ?_⟩
  · have hfirst : size 1.5092224987112702e308 ≤ (7561839950327026 : ℕ) * 2 ^ (971 : ℤ) :=
      size_le_of_le (by decide) (by decide +kernel)
        ⟨by decide, by decide, by decide, .inl (by decide)⟩ (by decide +kernel)
    have hsecond : size 9.76702644879602e307 ≤ (4893691345011945 : ℕ) * 2 ^ (971 : ℤ) :=
      size_le_of_le (by decide) (by decide +kernel)
        ⟨by decide, by decide, by decide, .inl (by decide)⟩ (by decide +kernel)
    -- the sum of the squares is below the bound by exact arithmetic on the two mantissas
    have hsquares := add_le_add (pow_le_pow_left₀ (size_nonneg _) hfirst 2)
      (pow_le_pow_left₀ (size_nonneg _) hsecond 2)
    have hsum : (nearBound.toList.map fun a => size a ^ 2).sum
        = size 1.5092224987112702e308 ^ 2 + size 9.76702644879602e307 ^ 2 := by
      simp [nearBound]
    rw [hsum, overflowBound_eq]
    refine hsquares.trans_lt ?_
    rw [mul_pow, mul_pow, mul_pow, ← add_mul]
    exact mul_lt_mul_of_pos_right (by norm_num) (pow_pos (two_zpow_pos 971) 2)
  · rw [hall nearBound hfin] at hnorm
    cases hnorm

end NewtonMethod
