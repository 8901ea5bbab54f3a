/-
NewtonMethod/Proofs/Tangent.lean

Dual numbers carry derivatives, over the real numbers.

A dual number follows a function `f` at `t` if its first part is `f t` and its
second part is the derivative of `f` there (`Dual.Follows`).  Every operation on
dual numbers takes numbers that follow functions to one that follows the result
of the operation on these functions:

    a * b        follows    f * g       product rule
    a / b                   f / g       quotient rule
    chain                   h ∘ f       chain rule, for the functions of one argument
    a.powf n                f ^ n       power rule, in four cases of the exponent

So a formula, evaluated at a dual number that follows `γ`, follows its own values
along `γ` (`RegularAt.exists_traces`); the induction is on the formula, and `γ` is
any function.  Two of them give the main result `hasDerivAt_slopeOf`: a constant,
for the value of the formula, and the identity, for its slope.

Regular are the numbers at which all the functions in a formula have derivatives.
An exponent has to be a double, since the rule for the exponent two is also used
for exponents that are nearer to two than `Dual.spacing`, and two is the only
double among them (`IsDouble.eq_two`).
-/
import Mathlib.Analysis.Calculus.Deriv.Abs
import Mathlib.Analysis.SpecialFunctions.Pow.Deriv
import Mathlib.Analysis.SpecialFunctions.Sqrt
import NewtonMethod.Expression
import NewtonMethod.Proofs.EuclideanNorm
import NewtonMethod.Proofs.Outcome
import NewtonMethod.Space.Scalar

namespace NewtonMethod

/-! ### Exponents -/

/-- The real numbers that a double can stand for. -/
def IsDouble (a : ℝ) : Prop :=
  ∃ m e : ℤ, |m| < 2 ^ 53 ∧ -1074 ≤ e ∧ e ≤ 971 ∧ a = m * 2 ^ e

/-- No other double is nearer to two than the spacing of the doubles between one and two. -/
theorem IsDouble.eq_two {a : ℝ} (h : IsDouble a) (hnear : |a - 2| < 1 / 2 ^ 52) : a = 2 := by
  obtain ⟨m, e, hm, -, -, rfl⟩ := h
  by_cases he : -52 ≤ e
  · -- a multiple of the spacing
    obtain ⟨k, rfl⟩ : ∃ k : ℕ, e = k - 52 := ⟨(e + 52).toNat, by omega⟩
    have hgap : (m : ℝ) * 2 ^ ((k : ℤ) - 52) - 2 = ((m * 2 ^ k - 2 ^ 53 : ℤ) : ℝ) / 2 ^ 52 := by
      rw [zpow_sub₀ two_ne_zero, zpow_natCast]
      push_cast
      ring
    rw [hgap, abs_div, abs_of_pos (by positivity : (0 : ℝ) < 2 ^ 52),
      div_lt_div_iff_of_pos_right (by positivity)] at hnear
    have hinteger : |m * 2 ^ k - 2 ^ 53| < 1 := by exact_mod_cast hnear
    rw [Int.abs_lt_one_iff.mp hinteger, Int.cast_zero, zero_div] at hgap
    exact sub_eq_zero.mp hgap
  · -- all smaller than one
    have hsmall : |(m : ℝ) * 2 ^ e| < 1 := by
      have hm' : |(m : ℝ)| < 2 ^ 53 := by exact_mod_cast hm
      calc |(m : ℝ) * 2 ^ e| = |(m : ℝ)| * 2 ^ e := by
            rw [abs_mul, abs_of_pos (by positivity : (0 : ℝ) < 2 ^ e)]
        _ < 2 ^ 53 * 2 ^ e := by gcongr
        _ ≤ 2 ^ 53 * 2 ^ (-53 : ℤ) := by
            gcongr
            · norm_num
            · omega
        _ = 1 := by norm_num
    rw [abs_lt] at hsmall hnear
    have hbound : (1 : ℝ) / 2 ^ 52 < 1 := by norm_num
    linarith

namespace Dual

variable {f g h : ℝ → ℝ} {t : ℝ} {a b : Dual ℝ}

/-- The parts of `a` are the value of `f` at `t` and its derivative there. -/
structure Follows (f : ℝ → ℝ) (t : ℝ) (a : Dual ℝ) : Prop where
  value : a.re = f t
  slope : HasDerivAt f a.eps t

namespace Follows

/-! ### The four operations -/

theorem constant (c t : ℝ) : Follows (fun _ => c) t (Dual.constant c) :=
  ⟨rfl, hasDerivAt_const t c⟩

theorem variableAt (t : ℝ) : Follows id t (Dual.variableAt t) := ⟨rfl, hasDerivAt_id t⟩

theorem add (ha : Follows f t a) (hb : Follows g t b) : Follows (fun u => f u + g u) t (a + b) :=
  ⟨congrArg₂ (· + ·) ha.value hb.value, ha.slope.add hb.slope⟩

theorem sub (ha : Follows f t a) (hb : Follows g t b) : Follows (fun u => f u - g u) t (a - b) :=
  ⟨congrArg₂ (· - ·) ha.value hb.value, ha.slope.sub hb.slope⟩

theorem neg (ha : Follows f t a) : Follows (fun u => -f u) t (-a) :=
  ⟨congrArg (- ·) ha.value, ha.slope.neg⟩

/-- Product rule. -/
theorem mul (ha : Follows f t a) (hb : Follows g t b) : Follows (fun u => f u * g u) t (a * b) := by
  refine ⟨congrArg₂ (· * ·) ha.value hb.value, (ha.slope.mul hb.slope).congr_deriv ?_⟩
  show a.eps * g t + f t * b.eps = a.eps * b.re + b.eps * a.re
  rw [ha.value, hb.value]
  ring

/-- Quotient rule, for a divisor other than zero. -/
theorem div (ha : Follows f t a) (hb : Follows g t b) (hne : g t ≠ 0) :
    Follows (fun u => f u / g u) t (a / b) := by
  refine ⟨?_, (ha.slope.div hb.slope hne).congr_deriv ?_⟩
  · show a.re * (1 / b.re) = f t / g t
    rw [ha.value, hb.value]
    ring
  · show (a.eps * g t - f t * b.eps) / g t ^ 2
      = (a.eps * b.re - b.eps * a.re) * (1 / b.re) * (1 / b.re)
    rw [ha.value, hb.value]
    field_simp

/-! ### Functions of one argument -/

/-- Chain rule, for the derivative `f1` of the outer function. -/
theorem chain (ha : Follows f t a) {f1 : ℝ} (hh : HasDerivAt h f1 a.re) :
    Follows (fun u => h (f u)) t (a.chain (h a.re) f1) := by
  refine ⟨congrArg h ha.value, ?_⟩
  -- the outer function is differentiated at the value of the inner one
  rw [ha.value] at hh
  exact (hh.comp t ha.slope).congr_deriv (mul_comm f1 a.eps)

/-- Reciprocals, of numbers other than zero. -/
theorem recip (ha : Follows f t a) (hne : f t ≠ 0) : Follows (fun u => 1 / f u) t a.recip := by
  have hderiv : HasDerivAt (fun v : ℝ => 1 / v) (-(1 / a.re) * (1 / a.re)) a.re := by
    rw [← ha.value] at hne
    simp only [one_div]
    exact (hasDerivAt_inv hne).congr_deriv (by field_simp)
  exact ha.chain hderiv

/-- Square roots, of positive numbers. -/
theorem sqrt (ha : Follows f t a) (hpos : 0 < f t) : Follows (fun u => √(f u)) t a.sqrt := by
  have hderiv : HasDerivAt Real.sqrt (√a.re * (1 / a.re) * (1 / (2 : ℕ))) a.re := by
    rw [← ha.value] at hpos
    refine (Real.hasDerivAt_sqrt hpos.ne').congr_deriv ?_
    have hroot : √a.re ≠ 0 := (Real.sqrt_pos.mpr hpos).ne'
    field_simp
    rw [Real.sq_sqrt hpos.le]
    push_cast
    ring
  exact ha.chain hderiv

theorem exp (ha : Follows f t a) : Follows (fun u => Real.exp (f u)) t a.exp :=
  ha.chain (Real.hasDerivAt_exp a.re)

/-- Logarithms, of positive numbers. -/
theorem ln (ha : Follows f t a) (hpos : 0 < f t) : Follows (fun u => Real.log (f u)) t a.ln := by
  have hderiv : HasDerivAt Real.log (1 / a.re) a.re := by
    rw [← ha.value] at hpos
    rw [one_div]
    exact Real.hasDerivAt_log hpos.ne'
  exact ha.chain hderiv

theorem sin (ha : Follows f t a) : Follows (fun u => Real.sin (f u)) t a.sin :=
  ha.chain (Real.hasDerivAt_sin a.re)

theorem cos (ha : Follows f t a) : Follows (fun u => Real.cos (f u)) t a.cos :=
  ha.chain (Real.hasDerivAt_cos a.re)

/-- Magnitudes, of numbers other than zero, by the sign. -/
theorem abs (ha : Follows f t a) (hne : f t ≠ 0) : Follows (fun u => |f u|) t a.abs := by
  rw [Dual.abs]
  split
  next hneg =>
    have hneg : f t < 0 := ha.value ▸ of_decide_eq_true hneg
    refine ⟨(congrArg (- ·) ha.value).trans (abs_of_neg hneg).symm, ?_⟩
    exact ((hasDerivAt_abs_neg hneg).comp t ha.slope).congr_deriv (neg_one_mul a.eps)
  next hneg =>
    have hpos : 0 < f t := by
      rw [← ha.value] at hne ⊢
      exact lt_of_le_of_ne (not_lt.mp fun h => hneg (decide_eq_true h)) hne.symm
    refine ⟨ha.value.trans (abs_of_pos hpos).symm, ?_⟩
    exact ((hasDerivAt_abs_pos hpos).comp t ha.slope).congr_deriv (one_mul a.eps)

/-- Taken three lower and multiplied up, a power of a number other than zero is that power. -/
theorem rpow_sub_three_mul {v : ℝ} (hv : v ≠ 0) (n : ℝ) :
    v ^ (n - 1 - 1 - 1) * v * v = v ^ (n - 1) := by
  rw [← Real.rpow_add_one hv, ← Real.rpow_add_one hv, sub_add_cancel, sub_add_cancel]

/-- Power rule, for the four cases of the exponent. -/
theorem powf (ha : Follows f t a) (hne : f t ≠ 0) {n : ℝ} (hn : IsDouble n) :
    Follows (fun u => f u ^ n) t (a.powf n) := by
  rw [Dual.powf]
  split
  next h =>
    obtain rfl : n = 0 := of_decide_eq_true h
    simp only [Real.rpow_zero]
    exact constant 1 t
  next =>
    split
    next h =>
      obtain rfl : n = 1 := of_decide_eq_true h
      simp only [Real.rpow_one]
      exact ha
    next =>
      split
      next h =>
        have hnear : |n - 1 - 1| < 1 / (0x10000000000000 : ℕ) := of_decide_eq_true h
        -- nearer to two than any double but two
        obtain rfl : n = 2 := by
          refine hn.eq_two ?_
          rw [sub_sub, one_add_one_eq_two] at hnear
          norm_num at hnear ⊢
          exact hnear
        simp only [Real.rpow_two, sq]
        exact ha.mul ha
      next =>
        -- any other exponent
        rw [← ha.value] at hne
        have hsquare := rpow_sub_three_mul hne n
        have hvalue : a.re ^ (n - 1) * a.re = a.re ^ n := by
          rw [← Real.rpow_add_one hne, sub_add_cancel]
        have hderiv : HasDerivAt (fun v : ℝ => v ^ n) (a.re ^ (n - 1) * n) a.re :=
          (Real.hasDerivAt_rpow_const (.inl hne)).congr_deriv (mul_comm _ _)
        have hchain := ha.chain hderiv
        rw [← hvalue, ← hsquare] at hchain
        exact hchain

end Follows

end Dual

namespace Expression

/-! ### Formulas -/

/-- A formula in one number that has a derivative at `x`, since all its parts have: no divisor and
no base is zero there, no root and no logarithm is taken of a number that is not positive, and no
magnitude of zero. -/
inductive RegularAt (x : ℝ) : Expression ℝ → Prop
  | constant (c : ℝ) : RegularAt x (constant c)
  | coordinate : RegularAt x (coordinate 0)
  | add {a b : Expression ℝ} (left : RegularAt x a) (right : RegularAt x b) : RegularAt x (add a b)
  | sub {a b : Expression ℝ} (left : RegularAt x a) (right : RegularAt x b) : RegularAt x (sub a b)
  | mul {a b : Expression ℝ} (left : RegularAt x a) (right : RegularAt x b) : RegularAt x (mul a b)
  | div {a b : Expression ℝ} (left : RegularAt x a) (right : RegularAt x b)
      (nonzero : ∀ v, b.value x = .ok v → v ≠ 0) : RegularAt x (div a b)
  | neg {a : Expression ℝ} (argument : RegularAt x a) : RegularAt x (neg a)
  | recip {a : Expression ℝ} (argument : RegularAt x a)
      (nonzero : ∀ v, a.value x = .ok v → v ≠ 0) : RegularAt x (recip a)
  | sqrt {a : Expression ℝ} (argument : RegularAt x a)
      (positive : ∀ v, a.value x = .ok v → 0 < v) : RegularAt x (sqrt a)
  | exp {a : Expression ℝ} (argument : RegularAt x a) : RegularAt x (exp a)
  | ln {a : Expression ℝ} (argument : RegularAt x a)
      (positive : ∀ v, a.value x = .ok v → 0 < v) : RegularAt x (ln a)
  | sin {a : Expression ℝ} (argument : RegularAt x a) : RegularAt x (sin a)
  | cos {a : Expression ℝ} (argument : RegularAt x a) : RegularAt x (cos a)
  | abs {a : Expression ℝ} (argument : RegularAt x a)
      (nonzero : ∀ v, a.value x = .ok v → v ≠ 0) : RegularAt x (abs a)
  | powf {a : Expression ℝ} {n : ℝ} (argument : RegularAt x a)
      (nonzero : ∀ v, a.value x = .ok v → v ≠ 0) (exponent : IsDouble n) : RegularAt x (powf a n)

variable {γ f g φ : ℝ → ℝ} {t : ℝ} {c : Dual ℝ} {e a b : Expression ℝ}

/-- The values of `e` are those of `f`, and at the dual number `c` its value follows `f` along
`γ`. -/
structure Traces (γ : ℝ → ℝ) (t : ℝ) (c : Dual ℝ) (e : Expression ℝ) (f : ℝ → ℝ) : Prop where
  value (y : ℝ) : e.value y = .ok (f y)
  dual : ∃ d, e.dual c = .ok d ∧ d.Follows (fun u => f (γ u)) t

/-- A function of one argument, over numbers and over dual numbers. -/
theorem Traces.map {ψ : Dual ℝ → Dual ℝ} (ha : a.Traces γ t c f)
    (hvalue : ∀ y, e.value y = a.value y >>= fun v => pure (φ v))
    (hdual : e.dual c = a.dual c >>= fun d => pure (ψ d))
    (hψ : ∀ d, Dual.Follows (fun u => f (γ u)) t d → (ψ d).Follows (fun u => φ (f (γ u))) t) :
    e.Traces γ t c fun y => φ (f y) := by
  obtain ⟨d, hd, hfollows⟩ := ha.dual
  constructor
  · intro y
    rw [hvalue, ha.value]
    rfl
  · refine ⟨ψ d, ?_, hψ d hfollows⟩
    rw [hdual, hd]
    rfl

/-- A function of two arguments, over numbers and over dual numbers. -/
theorem Traces.map₂ {φ : ℝ → ℝ → ℝ} {ψ : Dual ℝ → Dual ℝ → Dual ℝ} (ha : a.Traces γ t c f)
    (hb : b.Traces γ t c g)
    (hvalue : ∀ y, e.value y = a.value y >>= fun v => b.value y >>= fun w => pure (φ v w))
    (hdual : e.dual c = a.dual c >>= fun d => b.dual c >>= fun d' => pure (ψ d d'))
    (hψ : ∀ d d', Dual.Follows (fun u => f (γ u)) t d → Dual.Follows (fun u => g (γ u)) t d' →
      (ψ d d').Follows (fun u => φ (f (γ u)) (g (γ u))) t) :
    e.Traces γ t c fun y => φ (f y) (g y) := by
  obtain ⟨d, hd, hfollows⟩ := ha.dual
  obtain ⟨d', hd', hfollows'⟩ := hb.dual
  constructor
  · intro y
    rw [hvalue, ha.value, hb.value]
    rfl
  · refine ⟨ψ d d', ?_, hψ d d' hfollows hfollows'⟩
    rw [hdual, hd, hd']
    rfl

/-- At a dual number that follows `γ`, the value of a formula follows its values along `γ`. -/
theorem RegularAt.exists_traces (h : e.RegularAt (γ t)) (hc : Dual.Follows γ t c) :
    ∃ f, e.Traces γ t c f := by
  induction h with
  | constant r => exact ⟨_, fun _ => rfl, _, rfl, .constant r t⟩
  | coordinate => exact ⟨id, fun _ => rfl, c, rfl, hc⟩
  | add _ _ iha ihb =>
    obtain ⟨⟨f, ha⟩, g, hb⟩ := iha, ihb
    exact ⟨_, ha.map₂ hb (fun _ => rfl) rfl fun _ _ => .add⟩
  | sub _ _ iha ihb =>
    obtain ⟨⟨f, ha⟩, g, hb⟩ := iha, ihb
    exact ⟨_, ha.map₂ hb (fun _ => rfl) rfl fun _ _ => .sub⟩
  | mul _ _ iha ihb =>
    obtain ⟨⟨f, ha⟩, g, hb⟩ := iha, ihb
    exact ⟨_, ha.map₂ hb (fun _ => rfl) rfl fun _ _ => .mul⟩
  | div _ _ hne iha ihb =>
    obtain ⟨⟨f, ha⟩, g, hb⟩ := iha, ihb
    exact ⟨_, ha.map₂ hb (fun _ => rfl) rfl fun _ _ hd hd' => hd.div hd' (hne _ (hb.value _))⟩
  | neg _ ih =>
    obtain ⟨f, ha⟩ := ih
    exact ⟨_, ha.map (fun _ => rfl) rfl fun _ => .neg⟩
  | recip _ hne ih =>
    obtain ⟨f, ha⟩ := ih
    exact ⟨_, ha.map (fun _ => rfl) rfl fun _ hd => hd.recip (hne _ (ha.value _))⟩
  | sqrt _ hpos ih =>
    obtain ⟨f, ha⟩ := ih
    exact ⟨_, ha.map (fun _ => rfl) rfl fun _ hd => hd.sqrt (hpos _ (ha.value _))⟩
  | exp _ ih =>
    obtain ⟨f, ha⟩ := ih
    exact ⟨_, ha.map (fun _ => rfl) rfl fun _ => .exp⟩
  | ln _ hpos ih =>
    obtain ⟨f, ha⟩ := ih
    exact ⟨_, ha.map (fun _ => rfl) rfl fun _ hd => hd.ln (hpos _ (ha.value _))⟩
  | sin _ ih =>
    obtain ⟨f, ha⟩ := ih
    exact ⟨_, ha.map (fun _ => rfl) rfl fun _ => .sin⟩
  | cos _ ih =>
    obtain ⟨f, ha⟩ := ih
    exact ⟨_, ha.map (fun _ => rfl) rfl fun _ => .cos⟩
  | abs _ hne ih =>
    obtain ⟨f, ha⟩ := ih
    exact ⟨_, ha.map (fun _ => rfl) rfl fun _ hd => hd.abs (hne _ (ha.value _))⟩
  | powf _ hne hn ih =>
    obtain ⟨f, ha⟩ := ih
    exact ⟨_, ha.map (fun _ => rfl) rfl fun _ hd => hd.powf (hne _ (ha.value _)) hn⟩

/-- **The slope carried by dual numbers is the derivative.**  Let a formula be regular at `x`.  It
has a value `f y` at every number `y`.  Evaluated over dual numbers at `x`, it has the value `f x`
and as its slope the derivative of `f` at `x`, and this is the derivative that a solver made from it
works with. -/
theorem hasDerivAt_slopeOf {e : Expression ℝ} {x : ℝ} (h : e.RegularAt x) :
    ∃ (f : ℝ → ℝ) (f' : ℝ), (∀ y, e.value y = .ok (f y))
      ∧ Dual.valueOf e.dual x = .ok (f x)
      ∧ Dual.slopeOf e.dual x = .ok f' ∧ HasDerivAt f f' x
      ∧ ∀ (config : Config ℝ) (fx : ℝ),
          ((Solver.ofDual e.dual config).derivative.at (Solver.ofDual e.dual config).function x
            fx).outcome = .ok f' := by
  obtain ⟨f, hf, d, hd, hfollows⟩ := h.exists_traces (γ := id) (Dual.Follows.variableAt x)
  obtain ⟨g, hg, d₀, hd₀, hfollows₀⟩ :=
    h.exists_traces (γ := fun _ => x) (t := x) (Dual.Follows.constant x x)
  -- the values do not depend on the function that is followed
  obtain rfl : f = g := funext fun y => Except.ok.inj ((hf y).symm.trans (hg y))
  have hslope : Dual.slopeOf e.dual x = .ok d.eps := by
    rw [Dual.slopeOf, hd]
    rfl
  refine ⟨f, d.eps, hf, ?_, hslope, hfollows.slope, fun config fx => ?_⟩
  · rw [Dual.valueOf, hd₀]
    exact congrArg Except.ok hfollows₀.value
  · show (Run.evaluate .slope (Dual.slopeOf e.dual) x : Run ℝ ℝ).outcome = _
    rw [Run.outcome_evaluate, hslope]
    rfl

/-- The sine of the logarithm, divided by the power with exponent five halves. -/
noncomputable def dampedSine : Expression ℝ :=
  div (sin (ln (coordinate 0))) (powf (coordinate 0) (5 / 2))

theorem hasDerivAt_slopeOf_dampedSine :
    dampedSine.RegularAt 2
      ∧ Dual.valueOf dampedSine.dual 2 = .ok (Real.sin (Real.log 2) / 2 ^ (5 / 2 : ℝ))
      ∧ ∃ f', Dual.slopeOf dampedSine.dual 2 = .ok f'
          ∧ HasDerivAt (fun y : ℝ => Real.sin (Real.log y) / y ^ (5 / 2 : ℝ)) f' 2 := by
  have hdouble : IsDouble (5 / 2) := ⟨5, -1, by norm_num, by norm_num, by norm_num, by norm_num⟩
  have hregular : dampedSine.RegularAt 2 := by
    refine .div (.sin (.ln .coordinate ?_)) (.powf .coordinate ?_ hdouble) ?_
    · rintro v ⟨⟩
      exact two_pos
    · rintro v ⟨⟩
      exact two_ne_zero
    · rintro v ⟨⟩
      exact (Real.rpow_pos_of_pos two_pos _).ne'
  obtain ⟨f, f', hf, hvalue, hslope, hderiv, -⟩ := hasDerivAt_slopeOf hregular
  obtain rfl : (fun y : ℝ => Real.sin (Real.log y) / y ^ (5 / 2 : ℝ)) = f :=
    funext fun y => Except.ok.inj (hf y)
  exact ⟨hregular, hvalue, f', hslope, hderiv⟩

end Expression

end NewtonMethod
