/-
NewtonMethod/Proofs/ClampedStep.lean

What a trust radius makes of a step in doubles.

A step `δ` longer than the radius `r` is multiplied by the factor `r / ‖δ‖`, which is
from zero to one (`factor_le_one`).  So each coordinate stays finite if it was, and
one that was not is not finite afterwards either, since no product with it is.  The
finiteness of a step can therefore be tested after the clamp as well as before it,
and a search that goes on has had a finite step (`clamp_hidesNothing`).  Nothing is
used of the norm for this, be it `nan`, infinite or too small.

What the clamp may do is to lose the step.  The factor is zero if the norm is infinite
or the quotient underflows, and then all coordinates are zero.  Otherwise the factor is
at least half of the quotient and the norm at most `2³⁰` times the largest coordinate,
so that coordinate does not underflow, unless the radius is tiny:

    ‖δ‖ finite  and  2⁻¹⁰⁷⁵ · ‖δ‖ < r        for    2⁻¹⁰⁴⁴ < r
    ‖δ‖ finite                               for    2⁻⁵¹ ≤ r

is what it takes for the step to move (`clamped_moves`).
-/
import Mathlib
import NewtonMethod.Proofs.Course
import NewtonMethod.Proofs.RoundedNorm

namespace NewtonMethod

open PointSpace Double
open NewtonMethod.Norm (NormBounds normBounds_number normBounds_column normBounds_fixed)

/-! ### The factor -/

namespace Double

variable {a r length : Float}

/-- A radius divided by a length that is infinite. -/
theorem parts_div_infinity (hr : HasSign .positive (parts r))
    (hlength : parts length = .infinity .positive) : parts (r / length) = .zero .positive := by
  rw [div_eq, hlength]
  generalize parts r = u at hr ⊢
  cases hr with
  | zero => exact parts_ofParts (u := .zero .positive) trivial
  | finite => exact parts_ofParts (u := .zero .positive) trivial

/-- A radius divided by a length that is larger and finite. -/
theorem rounds_factor (hr : HasSign .positive (parts r))
    (hlength : HasSign .positive (parts length)) (hlong : Arithmetic.lt r length = true) :
    size r < size length ∧ Rounds .positive (size r / size length) (r / length) := by
  have hlt := (lt_iff_size_lt hr hlength).mp hlong
  refine ⟨hlt, rounds_div hr hlength (Bool.eq_false_iff.mpr fun hzero => ?_)⟩
  rw [size_of_isZero hzero] at hlt
  exact absurd hlt (size_nonneg r).not_gt

/-- The factor is from zero to one. -/
theorem inUnit_factor (hr : HasSign .positive (parts r)) (hlong : Arithmetic.lt r length = true) :
    InUnit (r / length) := by
  rcases hasSign_or_of_lt hr hlong with hlength | hinf
  · obtain ⟨hlt, hround⟩ := rounds_factor hr hlength hlong
    obtain ⟨hfin, hle⟩ := hround.isFinite_and_size_le representable_one
      ((div_le_one ((size_nonneg r).trans_lt hlt)).mpr hlt.le) one_lt_overflowBound
    exact ⟨hround.hasSign hfin, hle⟩
  · have hparts := parts_div_infinity hr hinf
    refine ⟨?_, ?_⟩
    · rw [hparts]
      exact .zero
    · rw [size, hparts]
      exact zero_le_one

/-- The factor is zero only if the length is infinite or the quotient is rounded to zero. -/
theorem size_factor_ne_zero_iff (hr : HasSign .positive (parts r))
    (hlong : Arithmetic.lt r length = true) :
    size (r / length) ≠ 0 ↔
      Arithmetic.isFinite length = true ∧ 2 ^ (-1075 : ℤ) * size length < size r := by
  rcases hasSign_or_of_lt hr hlong with hlength | hinf
  · obtain ⟨hlt, hround⟩ := rounds_factor hr hlength hlong
    have hfactor := (inUnit_factor hr hlong).hasSign.isFinite
    have hzero : size (r / length) = 0 ↔ size r / size length ≤ 2 ^ (-1075 : ℤ) := by
      rw [← hround.isZero_iff]
      refine ⟨fun hsize => ?_, size_of_isZero⟩
      rw [isZero_iff_size_le hfactor, hsize]
      exact (two_zpow_pos _).le
    rw [Ne, hzero, not_le, lt_div_iff₀ ((size_nonneg r).trans_lt hlt)]
    exact (and_iff_right hlength.isFinite).symm
  · refine iff_of_false (not_not.mpr ?_) fun hfin => ?_
    · rw [size, parts_div_infinity hr hinf, magnitude_zero]
    · rw [isFinite_eq, hinf] at hfin
      cases hfin.1

/-- With an ordinary radius no quotient is rounded to zero. -/
theorem two_zpow_mul_size_lt (a : Float) (hr : 2 ^ (-51 : ℤ) ≤ size r) :
    2 ^ (-1075 : ℤ) * size a < size r := by
  have hrange : size a < 2 ^ (1024 : ℤ) := (size_lt_overflowBound a).trans_le overflowBound_le
  calc (2 : ℝ) ^ (-1075 : ℤ) * size a < 2 ^ (-1075 : ℤ) * 2 ^ (1024 : ℤ) :=
        mul_lt_mul_of_pos_left hrange (two_zpow_pos _)
    _ = 2 ^ (-51 : ℤ) := by
      rw [← zpow_add₀ two_ne_zero]
      rfl
    _ ≤ size r := hr

/-- A finite number times a factor is finite. -/
theorem isFinite_mul_factor (ha : Arithmetic.isFinite a = true) (hr : InUnit r) :
    Arithmetic.isFinite (a * r) = true := by
  obtain ⟨s, hs⟩ := isFinite_iff.mp ha
  refine (rounds_mul hs hr.hasSign).isFinite_iff.mpr ?_
  exact (mul_le_of_le_one_right (size_nonneg a) hr.size_le_one).trans_lt (size_lt_overflowBound a)

end Double

/-! ### Points and coordinates -/

/-- A point is finite if its coordinates are, scaling is done coordinate by coordinate, and the norm
of a finite point is bounded by the coordinates. -/
class DoublePoints (X : Type) {J : Type} [PointSpace X Float J] : Prop where
  isFinite_iff (x : X) : isFinite x = true ↔ ∀ a ∈ coordinates x, Arithmetic.isFinite a = true
  coordinates_scaled (x : X) (c : Float) : coordinates (scaled x c) = (coordinates x).map (· * c)
  exists_normBounds {x : X} : isFinite x = true →
    ∃ ρ, NormBounds (coordinates x).toList ρ (norm x)

instance : DoublePoints Float where
  isFinite_iff x := by
    show Arithmetic.isFinite x = true ↔ ∀ a ∈ #[x], Arithmetic.isFinite a = true
    simp
  coordinates_scaled x c := by
    show #[x * c] = #[x].map (· * c)
    simp
  exists_normBounds hx := ⟨_, normBounds_number hx⟩

instance : DoublePoints (Array Float) where
  isFinite_iff _ := Array.all_eq_true_iff_forall_mem
  coordinates_scaled _ _ := rfl
  exists_normBounds hx := ⟨_, normBounds_column hx⟩

instance {n : ℕ} : DoublePoints (Vector Float n) where
  isFinite_iff x := by
    show x.all Arithmetic.isFinite = true ↔ ∀ a ∈ x.toArray, Arithmetic.isFinite a = true
    rw [← Vector.all_toArray, Array.all_eq_true_iff_forall_mem]
  coordinates_scaled _ _ := rfl
  exists_normBounds hx := ⟨_, normBounds_fixed hx⟩

/-! ### Overflow -/

namespace Solver

variable {X J : Type} [PointSpace X Float J] [DoublePoints X] {s : Solver X Float J} {r : Float}
  {i : ℕ} {x fx delta next : X}

/-- The radius is positive and finite, if there is one. -/
def HasPositiveRadius (s : Solver X Float J) : Prop :=
  ∀ r, s.config.maxRadius = some r → Config.isPositive r = true

theorem isFinite_scaled {c : Float} (hc : InUnit c) :
    PointSpace.isFinite (scaled delta c) = PointSpace.isFinite delta := by
  rw [Bool.eq_iff_iff, DoublePoints.isFinite_iff, DoublePoints.isFinite_iff,
    DoublePoints.coordinates_scaled, Array.forall_mem_map]
  refine forall₂_congr fun a _ => ⟨fun h => ?_, fun h => isFinite_mul_factor h hc⟩
  by_contra hbad
  rw [isFinite_mul_of_left c (Bool.eq_false_iff.mpr hbad)] at h
  cases h

/-- A step is finite after the clamp if and only if it was before. -/
theorem isFinite_clamped (hs : s.HasPositiveRadius) (delta : X) :
    PointSpace.isFinite (s.clamped delta) = PointSpace.isFinite delta := by
  rw [clamped]
  rcases hradius : s.config.maxRadius with - | r
  · rfl
  · obtain ⟨hr, -⟩ := isPositive_iff.mp (hs r hradius)
    dsimp only
    split
    next hlong => exact isFinite_scaled (inUnit_factor hr hlong)
    next => rfl

/-- A point has a coordinate that is infinite or `nan`. -/
def Overflows (x : X) : Prop := ∃ a ∈ coordinates x, Arithmetic.isFinite a = false

theorem isFinite_eq_false_iff : PointSpace.isFinite x = false ↔ Overflows x := by
  rw [← Bool.not_eq_true, DoublePoints.isFinite_iff, Overflows]
  simp only [not_forall, exists_prop, Bool.not_eq_true]

/-- The updates of `s` tell of every overflow, clamped or not. -/
structure TellsOverflow (s : Solver X Float J) : Prop where
  clamp : ∀ delta, ∃ step, (s.clamp delta).outcome = .ok step ∧ (Overflows step ↔ Overflows delta)
  diverged : ∀ i x fx j c, (s.advance i x fx).outcome = .error (.failure (.diverged j c)) ↔
    j = i ∧ c = coordinates x ∧ ∃ delta step next, s.HasStep x fx delta
      ∧ (s.clamp delta).outcome = .ok step ∧ difference x step = .ok next
      ∧ (Overflows delta ∨ Overflows next)
  accepted : ∀ i x fx next, (s.advance i x fx).outcome = .ok next →
    ¬Overflows next ∧ ∃ delta, s.HasStep x fx delta ∧ ¬Overflows delta

theorem tellsOverflow (hs : s.HasPositiveRadius) : s.TellsOverflow where
  clamp delta := by
    refine ⟨s.clamped delta, outcome_clamp s delta, ?_⟩
    rw [← isFinite_eq_false_iff, ← isFinite_eq_false_iff, isFinite_clamped hs]
  diverged i x fx j c := by
    simp only [advance_eq_error_iff, outcome_clamp, Except.ok.injEq]
    constructor
    · intro h
      cases h with
      | @overflow jacobian delta next hslope hslopefin hsolve hmove hbad =>
        rw [isFinite_clamped hs, isFinite_eq_false_iff, isFinite_eq_false_iff] at hbad
        exact ⟨rfl, rfl, delta, _, next, ⟨jacobian, ⟨hslope, hslopefin⟩, hsolve⟩, rfl, hmove, hbad⟩
    · rintro ⟨rfl, rfl, delta, _, next, ⟨jacobian, ⟨hslope, hslopefin⟩, hsolve⟩, rfl, hmove, hbad⟩
      rw [← isFinite_eq_false_iff, ← isFinite_eq_false_iff, ← isFinite_clamped hs] at hbad
      exact .overflow hslope hslopefin hsolve hmove hbad
  accepted i x fx next h := by
    obtain ⟨jacobian, delta, hslope, hslopefin, hsolve, -, hfin, hnext⟩ := advance_eq_ok_iff.mp h
    rw [isFinite_clamped hs] at hfin
    refine ⟨?_, delta, ⟨jacobian, ⟨hslope, hslopefin⟩, hsolve⟩, ?_⟩
    · rw [← isFinite_eq_false_iff, hnext]
      exact Bool.noConfusion
    · rw [← isFinite_eq_false_iff, hfin]
      exact Bool.noConfusion

/-- **The clamp hides no overflow.**  In all three spaces, with a trust radius and without one, an
update reports that it diverged if and only if the solution of its linear equation or the point
after the clamped step has a coordinate that is not finite. -/
theorem clamp_hidesNothing :
    (∀ s : Solver Float Float Float, s.HasPositiveRadius → s.TellsOverflow) ∧
    (∀ s : Solver (Array Float) Float (Jacobian Float), s.HasPositiveRadius → s.TellsOverflow) ∧
    ∀ (n : ℕ) (s : Solver (Vector Float n) Float (Table Float n n)), s.HasPositiveRadius →
      s.TellsOverflow :=
  ⟨fun _ => tellsOverflow, fun _ => tellsOverflow, fun _ _ => tellsOverflow⟩

/-- A solver whose steps are infinite, with the radius one. -/
def overflowing : Solver Float Float Float :=
  ⟨fun _ => .ok 1e300, .function fun _ => .ok 1e-20, Config.standard.withMaxRadius 1⟩

/-- The factor for an infinite step is zero, and the product is not a number. -/
theorem clamp_hidesNothing_overflowing :
    overflowing.HasPositiveRadius
      ∧ Arithmetic.isZero (1 / norm (1e300 / 1e-20 : Float)) = true
      ∧ (overflowing.advance 3 7 1e300).outcome = .error (.failure (.diverged 3 #[7])) := by
  have hradius : overflowing.HasPositiveRadius := by
    rintro r ⟨⟩
    decide +kernel
  have hsolve : Scalar.solve (1e-20 : Float) 1e300 1e-30 = .ok (1e300 / 1e-20) :=
    if_neg (by decide +kernel)
  have hstep : overflowing.HasStep 7 1e300 (1e300 / 1e-20) :=
    ⟨1e-20, ⟨rfl, by decide +kernel⟩, hsolve⟩
  have hbad : Overflows (1e300 / 1e-20 : Float) :=
    ⟨1e300 / 1e-20, Array.mem_singleton.mpr rfl, by decide +kernel⟩
  obtain ⟨htells, -, -⟩ := clamp_hidesNothing
  refine ⟨hradius, by decide +kernel, ?_⟩
  exact ((htells overflowing hradius).diverged 3 7 1e300 3 #[7]).mpr
    ⟨rfl, rfl, _, _, _, hstep, outcome_clamp _ _, rfl, .inl hbad⟩

/-! ### Underflow -/

/-- A point has a coordinate other than zero. -/
def Moves (x : X) : Prop := ∃ a ∈ coordinates x, Arithmetic.isZero a = false

/-- A coordinate is lost if its product with the factor is too small. -/
theorem moves_scaled_iff (hdelta : PointSpace.isFinite delta = true) {c : Float} (hc : InUnit c) :
    Moves (scaled delta c) ↔ ∃ a ∈ coordinates delta, 2 ^ (-1075 : ℤ) < size a * size c := by
  have hne {a : Float} (ha : a ∈ coordinates delta) :
      Arithmetic.isZero (a * c) = false ↔ 2 ^ (-1075 : ℤ) < size a * size c := by
    obtain ⟨s, hs⟩ := isFinite_iff.mp ((DoublePoints.isFinite_iff delta).mp hdelta a ha)
    rw [← Bool.not_eq_true, (rounds_mul hs hc.hasSign).isZero_iff, not_le]
  rw [Moves, DoublePoints.coordinates_scaled]
  constructor
  · rintro ⟨b, hb, hmoves⟩
    obtain ⟨a, ha, rfl⟩ := Array.mem_map.mp hb
    exact ⟨a, ha, (hne ha).mp hmoves⟩
  · rintro ⟨a, ha, hlt⟩
    exact ⟨a * c, Array.mem_map_of_mem ha, (hne ha).mpr hlt⟩

/-- Unless the radius is tiny, a coordinate is kept if the norm is finite and the quotient of the
radius and the norm is not rounded to zero. -/
theorem exists_kept_iff (hdelta : PointSpace.isFinite delta = true) (hmoves : Moves delta)
    (hr : HasSign .positive (parts r)) (hlong : Arithmetic.lt r (norm delta) = true)
    (hsize : 2 ^ (-1044 : ℤ) < size r) :
    (∃ a ∈ coordinates delta, 2 ^ (-1075 : ℤ) < size a * size (r / norm delta)) ↔
      Arithmetic.isFinite (norm delta) = true ∧ 2 ^ (-1075 : ℤ) * size (norm delta) < size r := by
  constructor
  · rintro ⟨a, -, hkept⟩
    refine (size_factor_ne_zero_iff hr hlong).mp fun hzero => ?_
    rw [hzero, mul_zero] at hkept
    exact absurd hkept (two_zpow_pos _).not_gt
  · rintro ⟨hfin, hlt⟩
    have hlength := hasSign_or_of_lt hr hlong |>.resolve_right fun hinf => by
      rw [isFinite_eq, hinf] at hfin
      cases hfin
    obtain ⟨hshort, hround⟩ := rounds_factor hr hlength hlong
    have hpos := (size_nonneg r).trans_lt hshort
    -- the factor is at least half of the quotient, and the norm is not far from a coordinate
    have hhalf := hround.half_le_size (inUnit_factor hr hlong).hasSign.isFinite
      ((lt_div_iff₀ hpos).mpr hlt)
    obtain ⟨b, hb, -⟩ := hmoves
    obtain ⟨ρ, hbounds⟩ := DoublePoints.exists_normBounds hdelta
    obtain ⟨a, ha, hle⟩ :=
      hbounds.size_le 30 (.inr rfl) (List.ne_nil_of_mem (Array.mem_toList_iff.mpr hb)) hfin
    refine ⟨a, Array.mem_toList_iff.mp ha, ?_⟩
    have hunit : (2 : ℝ) ^ (-1075 : ℤ) = 2 ^ (-1044 : ℤ) / 2 ^ 31 := by
      rw [← zpow_natCast, ← zpow_sub₀ two_ne_zero]
      rfl
    calc (2 : ℝ) ^ (-1075 : ℤ) = 2 ^ (-1044 : ℤ) / 2 ^ 31 := hunit
      _ < size r / 2 ^ 31 := div_lt_div_of_pos_right hsize (by positivity)
      _ = size (norm delta) / 2 ^ 30 * (size r / size (norm delta) / 2) := by
        field_simp
      _ ≤ size a * size (r / norm delta) :=
        mul_le_mul ((div_le_iff₀ (by positivity)).mpr hle) hhalf
          (div_nonneg (div_nonneg (size_nonneg r) hpos.le) two_pos.le) (size_nonneg a)

/-- What the radius `r` makes of the step `delta`: it stays finite, and it moves if it is not longer
than the radius or the factor leaves something of a coordinate.  With a radius that is not tiny this
can be seen from the norm, and with an ordinary one only an infinite norm loses the step. -/
structure ClampMoves (s : Solver X Float J) (r : Float) (delta step : X) : Prop where
  outcome : (s.clamp delta).outcome = .ok step
  isFinite : PointSpace.isFinite step = true
  moves_iff : Moves step ↔ Arithmetic.lt r (norm delta) = false
    ∨ ∃ a ∈ coordinates delta, 2 ^ (-1075 : ℤ) < size a * size (r / norm delta)
  moves_iff_of_lt : 2 ^ (-1044 : ℤ) < size r →
    (Moves step ↔ Arithmetic.lt r (norm delta) = false
      ∨ Arithmetic.isFinite (norm delta) = true
        ∧ 2 ^ (-1075 : ℤ) * size (norm delta) < size r)
  moves_iff_of_le : 2 ^ (-51 : ℤ) ≤ size r →
    (Moves step ↔ Arithmetic.isFinite (norm delta) = true)

theorem clampMoves (hradius : s.config.maxRadius = some r) (hr : Config.isPositive r = true)
    (hdelta : PointSpace.isFinite delta = true) (hmoves : Moves delta) :
    s.ClampMoves r delta (s.clamped delta) := by
  obtain ⟨hsign, hpos⟩ := isPositive_iff.mp hr
  have hiff : Moves (s.clamped delta) ↔ Arithmetic.lt r (norm delta) = false
      ∨ ∃ a ∈ coordinates delta, 2 ^ (-1075 : ℤ) < size a * size (r / norm delta) := by
    rw [clamped, hradius]
    dsimp only
    split
    next hlong =>
      rw [moves_scaled_iff hdelta (inUnit_factor hsign hlong), hlong]
      simp
    next hshort => exact iff_of_true hmoves (.inl (Bool.eq_false_iff.mpr hshort))
  have hlarge (hsize : 2 ^ (-1044 : ℤ) < size r) : Moves (s.clamped delta)
      ↔ Arithmetic.lt r (norm delta) = false ∨ Arithmetic.isFinite (norm delta) = true
        ∧ 2 ^ (-1075 : ℤ) * size (norm delta) < size r := by
    rw [hiff]
    rcases hlong : Arithmetic.lt r (norm delta)
    · simp
    · simp only [Bool.true_eq_false, false_or]
      exact exists_kept_iff hdelta hmoves hsign hlong hsize
  refine ⟨outcome_clamp s delta, ?_, hiff, hlarge, fun hsize => ?_⟩
  · rw [isFinite_clamped, hdelta]
    intro r' hradius'
    obtain rfl : r = r' := Option.some.inj (hradius.symm.trans hradius')
    exact hr
  · rw [hlarge ((zpow_lt_zpow_right₀ one_lt_two (by decide)).trans_le hsize)]
    constructor
    · rintro (hshort | ⟨hfin, -⟩)
      · obtain ⟨ρ, hbounds⟩ := DoublePoints.exists_normBounds hdelta
        refine (hbounds.number.resolve_right fun hinf => ?_).isFinite
        rw [lt_of_parts_eq_infinity hsign hinf] at hshort
        cases hshort
      · exact hfin
    · exact fun hfin => .inr ⟨hfin, two_zpow_mul_size_lt _ hsize⟩

/-- A solver clamps the steps of a space as `ClampMoves` has it. -/
def ClampsTo (s : Solver X Float J) (r : Float) : Prop :=
  ∀ delta, PointSpace.isFinite delta = true → Moves delta → ∃ step, s.ClampMoves r delta step

theorem clampsTo (hradius : s.config.maxRadius = some r) (hr : Config.isPositive r = true) :
    s.ClampsTo r :=
  fun _ hdelta hmoves => ⟨_, clampMoves hradius hr hdelta hmoves⟩

/-- **When a clamped step moves.**  In all three spaces, for every radius and every finite step
other than zero, the step stays finite, and it is lost only where the factor is too small for every
coordinate. -/
theorem clamped_moves {n : ℕ} {r : Float} (hr : Config.isPositive r = true) :
    (∀ s : Solver Float Float Float, s.config.maxRadius = some r → s.ClampsTo r) ∧
    (∀ s : Solver (Array Float) Float (Jacobian Float), s.config.maxRadius = some r →
      s.ClampsTo r) ∧
    ∀ s : Solver (Vector Float n) Float (Table Float n n), s.config.maxRadius = some r →
      s.ClampsTo r :=
  ⟨fun _ hradius => clampsTo hradius hr, fun _ hradius => clampsTo hradius hr,
    fun _ hradius => clampsTo hradius hr⟩

/-- A solver with the trust radius `r`. -/
def bounded (r : Float) : Solver X Float J :=
  ofFunction (fun x => .ok x) (Config.standard.withMaxRadius r)

/-- A step whose length is near the end of the range, with the radius one. -/
theorem clamped_moves_threeFour :
    Config.isPositive (1 : Float) = true
      ∧ Arithmetic.lt 1 (norm (#[3e307, 4e307] : Array Float)) = true
      ∧ ∃ step : Array Float, ((bounded 1).clamp #[3e307, 4e307]).outcome = .ok step
        ∧ PointSpace.isFinite step = true ∧ Moves step := by
  have hsize : 2 ^ (-51 : ℤ) ≤ size 1 := by
    rw [size, parts_one, magnitude_finite]
    norm_num
  have hmoves : Moves (#[3e307, 4e307] : Array Float) :=
    ⟨3e307, Array.mem_toList_iff.mp List.mem_cons_self, by decide +kernel⟩
  have hpositive : Config.isPositive (1 : Float) = true := by decide +kernel
  obtain ⟨-, hcolumn, -⟩ := clamped_moves (n := 0) hpositive
  obtain ⟨step, hstep⟩ := hcolumn (bounded 1) rfl #[3e307, 4e307] (by decide +kernel) hmoves
  refine ⟨hpositive, by decide +kernel, step, hstep.outcome, hstep.isFinite, ?_⟩
  exact (hstep.moves_iff_of_le hsize).mpr (by decide +kernel)

omit [DoublePoints X] in
theorem not_moves_of_all_isZero (h : (coordinates x).all Arithmetic.isZero = true) : ¬Moves x := by
  rintro ⟨a, ha, hne⟩
  rw [Array.all_eq_true_iff_forall_mem.mp h a ha] at hne
  cases hne

/-- Two steps that are lost: the quotient of radius and length is too small, or the length is
infinite. -/
theorem clamp_losesSteps :
    Moves (1e300 : Float) ∧ Config.isPositive (1e-300 : Float) = true
      ∧ ¬Moves ((bounded 1e-300).clamped (1e300 : Float))
      ∧ PointSpace.isFinite (#[1.5e308, 1.5e308] : Array Float) = true
      ∧ ¬Moves ((bounded 1).clamped (#[1.5e308, 1.5e308] : Array Float))
      ∧ ¬∀ (s : Solver Float Float Float) (r delta : Float), s.config.maxRadius = some r →
          Config.isPositive r = true → PointSpace.isFinite delta = true → Moves delta →
          ∃ step, (s.clamp delta).outcome = .ok step ∧ PointSpace.isFinite step = true
            ∧ Moves step := by
  have hmoves : Moves (1e300 : Float) :=
    ⟨1e300, Array.mem_singleton.mpr rfl, by decide +kernel⟩
  have hpositive : Config.isPositive (1e-300 : Float) = true := by decide +kernel
  have hlost : ¬Moves ((bounded 1e-300).clamped (1e300 : Float)) :=
    not_moves_of_all_isZero (by decide +kernel)
  refine ⟨hmoves, hpositive, hlost, by decide +kernel,
    not_moves_of_all_isZero (by decide +kernel), fun hall => ?_⟩
  obtain ⟨step, hstep, -, hstays⟩ :=
    hall (bounded 1e-300) 1e-300 1e300 rfl hpositive (by decide +kernel) hmoves
  rw [outcome_clamp] at hstep
  rw [← Except.ok.inj hstep] at hstays
  exact hlost hstays

end Solver

end NewtonMethod
