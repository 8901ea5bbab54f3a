/-
NewtonMethod/Proofs/DualValues.lean

The value of a formula over dual numbers does not depend on the seed.

A solver that is made from a formula over dual numbers evaluates it twice at a
point: with the seed zero for the value, with the seed one for the slope.  That
the two belong together is a fact about two runs of one formula, for which the
second part of a dual number must never reach a first part.

It is proved with one run.  The first parts have operations of their own
(`FirstPart`), in which a quotient is a product with a reciprocal, a magnitude is
chosen by a sign and a power by its exponent.  Taking the first part commutes with
each of them (`isHom_first`), and a map that commutes with all operations commutes
with the evaluation of a formula, by induction on the formula
(`Expression.map_eval`).  So the first part of a result is computed from first
parts.

Nothing is assumed about the arithmetic.  In that of doubles the parts are
compared bit by bit, and for a NaN its sign counts as well, if the numbers are
those of `SignedFloat`.
-/
import NewtonMethod.Proofs.Iterates
import NewtonMethod.SignedFloat
import NewtonMethod.Space.Scalar

namespace NewtonMethod

/-! ### Maps that commute with the operations -/

section Maps

variable {α β γ ε : Type}

/-- The map commutes with the operations of a formula. -/
structure Elementary.IsHom [Elementary α β] [Elementary α γ] (φ : β → γ) : Prop where
  constant (c : α) : φ (constant c) = constant c
  add (a b : β) : φ (add a b) = add (φ a) (φ b)
  sub (a b : β) : φ (sub a b) = sub (φ a) (φ b)
  mul (a b : β) : φ (mul a b) = mul (φ a) (φ b)
  div (a b : β) : φ (div a b) = div (φ a) (φ b)
  neg (a : β) : φ (neg a) = neg (φ a)
  recip (a : β) : φ (recip a) = recip (φ a)
  sqrt (a : β) : φ (sqrt a) = sqrt (φ a)
  exp (a : β) : φ (exp a) = exp (φ a)
  ln (a : β) : φ (ln a) = ln (φ a)
  sin (a : β) : φ (sin a) = sin (φ a)
  cos (a : β) : φ (cos a) = cos (φ a)
  abs (a : β) : φ (abs a) = abs (φ a)
  powf (a : β) (n : α) : φ (powf a n) = powf (φ a) n

theorem coordinate_map (φ : β → γ) (p : Array β) (i : Nat) :
    (coordinate p i).map φ = coordinate (p.map φ) i := by
  by_cases h : i < p.size
  · have h' : i < (p.map φ).size := by rwa [Array.size_map]
    rw [coordinate, coordinate, dif_pos h, dif_pos h', Array.getElem_map]
    rfl
  · have h' : ¬i < (p.map φ).size := by rwa [Array.size_map]
    rw [coordinate, coordinate, dif_neg h, dif_neg h', Array.size_map]
    rfl

/-- The result of an operation with one argument. -/
theorem map_result {φ : β → γ} {f : β → β} {g : γ → γ} {x : Except ε β} {y : Except ε γ}
    (hx : x.map φ = y) (hf : ∀ a, φ (f a) = g (φ a)) :
    (x >>= fun a => pure (f a)).map φ = y >>= fun a => pure (g a) := by
  subst hx
  rcases x with e | a
  · rfl
  · exact congrArg Except.ok (hf a)

/-- The result of an operation with two arguments. -/
theorem map_result₂ {φ : β → γ} {f : β → β → β} {g : γ → γ → γ} {x x' : Except ε β}
    {y y' : Except ε γ} (hx : x.map φ = y) (hx' : x'.map φ = y')
    (hf : ∀ a b, φ (f a b) = g (φ a) (φ b)) :
    (x >>= fun a => x' >>= fun b => pure (f a b)).map φ
      = y >>= fun a => y' >>= fun b => pure (g a b) := by
  subst hx hx'
  rcases x with e | a
  · rfl
  rcases x' with e | b
  · rfl
  · exact congrArg Except.ok (hf a b)

/-- A map that commutes with the operations commutes with the evaluation of a formula. -/
theorem Expression.map_eval [Elementary α β] [Elementary α γ] {φ : β → γ}
    (h : Elementary.IsHom φ) (p : Array β) (e : Expression α) :
    (e.eval p).map φ = e.eval (p.map φ) := by
  induction e with
  | constant c => exact congrArg Except.ok (h.constant c)
  | coordinate i => exact coordinate_map φ p i
  | add a b iha ihb => exact map_result₂ iha ihb h.add
  | sub a b iha ihb => exact map_result₂ iha ihb h.sub
  | mul a b iha ihb => exact map_result₂ iha ihb h.mul
  | div a b iha ihb => exact map_result₂ iha ihb h.div
  | neg a ih => exact map_result ih h.neg
  | recip a ih => exact map_result ih h.recip
  | sqrt a ih => exact map_result ih h.sqrt
  | exp a ih => exact map_result ih h.exp
  | ln a ih => exact map_result ih h.ln
  | sin a ih => exact map_result ih h.sin
  | cos a ih => exact map_result ih h.cos
  | abs a ih => exact map_result ih h.abs
  | powf a n ih => exact map_result ih fun d => h.powf d n

end Maps

/-! ### First parts -/

variable {α : Type} [Arithmetic α]

/-- A number with the operations that evaluation over dual numbers has on first parts. -/
structure FirstPart (α : Type) where
  /-- The number. -/
  number : α

instance : Elementary α (FirstPart α) where
  constant c := ⟨c⟩
  add a b := ⟨a.number + b.number⟩
  sub a b := ⟨a.number - b.number⟩
  mul a b := ⟨a.number * b.number⟩
  div a b := ⟨a.number * (1 / b.number)⟩
  neg a := ⟨-a.number⟩
  recip a := ⟨1 / a.number⟩
  sqrt a := ⟨Arithmetic.sqrt a.number⟩
  exp a := ⟨Arithmetic.exp a.number⟩
  ln a := ⟨Arithmetic.ln a.number⟩
  sin a := ⟨Arithmetic.sin a.number⟩
  cos a := ⟨Arithmetic.cos a.number⟩
  abs a := if Arithmetic.isNegative a.number then ⟨-a.number⟩ else a
  powf a n :=
    if Arithmetic.eq n 0 then ⟨1⟩
    else if Arithmetic.eq n 1 then a
    else if Arithmetic.lt (Arithmetic.abs (n - 1 - 1)) Dual.spacing then ⟨a.number * a.number⟩
    else ⟨Arithmetic.pow a.number (n - 1 - 1 - 1) * a.number * a.number * a.number⟩

namespace Dual

/-- The first part of a dual number. -/
def first (a : Dual α) : FirstPart α := ⟨a.re⟩

/-- Every rule computes the first part of its result from first parts. -/
theorem isHom_first : Elementary.IsHom (first (α := α)) where
  constant _ := rfl
  add _ _ := rfl
  sub _ _ := rfl
  mul _ _ := rfl
  div _ _ := rfl
  neg _ := rfl
  recip _ := rfl
  sqrt _ := rfl
  exp _ := rfl
  ln _ := rfl
  sin _ := rfl
  cos _ := rfl
  abs a := apply_ite first _ (-a) a
  powf a n := by
    show first (Dual.powf a n) = _
    rw [Dual.powf]
    simp only [apply_ite first]
    rfl

variable {g : Dual α → Except ShapeFault (Dual α)}

/-- What a solver made from `g` works with at a point comes from one evaluation of `g`. -/
structure OneEvaluation (g : Dual α → Except ShapeFault (Dual α)) : Prop where
  /-- The first part of a result does not depend on the seed. -/
  value (x s t : α) : (g ⟨x, s⟩).map re = (g ⟨x, t⟩).map re
  /-- The residual is the first part of the evaluation with the seed one. -/
  residual (c : Config α) (x : α) : (Solver.ofDual g c).function x = (g (variableAt x)).map re
  /-- The derivative is the second part of the same evaluation. -/
  slope (c : Config α) (x fx : α) :
    ((Solver.ofDual g c).derivative.at (Solver.ofDual g c).function x fx).outcome
      = (Run.ofExcept ((g (variableAt x)).map eps) : Run α α).outcome
  /-- The update of an iterate is made from the one dual number that this evaluation gives. -/
  update (c : Config α) (x y : α) : (Solver.ofDual g c).Updates x y →
    ∃ d delta, g (variableAt x) = .ok d
      ∧ Scalar.solve d.eps d.re c.singularityTolerance = .ok delta
      ∧ y = x - (Solver.ofDual g c).clamped delta

theorem outcome_slope (c : Config α) (x fx : α) :
    ((Solver.ofDual g c).derivative.at (Solver.ofDual g c).function x fx).outcome
      = (Run.ofExcept ((g (variableAt x)).map eps) : Run α α).outcome :=
  Run.outcome_evaluate .slope (slopeOf g) x

/-- It suffices that first parts do not depend on the seed. -/
theorem OneEvaluation.of_value (h : ∀ x s t, (g ⟨x, s⟩).map re = (g ⟨x, t⟩).map re) :
    OneEvaluation g := by
  have hresidual (c : Config α) (x : α) :
      (Solver.ofDual g c).function x = (g (variableAt x)).map re := h x 0 1
  refine ⟨h, hresidual, outcome_slope, fun c x y hxy => ?_⟩
  obtain ⟨fx, f'x, delta, hf, -, hslope, -, hsolve, hmove, -, -⟩ := hxy
  rw [hresidual] at hf
  rw [outcome_slope, Run.ofExcept_eq_ok_iff] at hslope
  rcases hd : g (variableAt x) with e | d
  · rw [hd] at hf
    cases hf
  · rw [hd] at hf hslope
    obtain rfl : d.re = fx := Except.ok.inj hf
    obtain rfl : d.eps = f'x := Except.ok.inj hslope
    exact ⟨d, delta, rfl, hsolve, (Except.ok.inj hmove).symm⟩

end Dual

namespace Expression

/-! ### Formulas -/

/-- Two evaluations of a formula at points with the same first parts have results with the same
first part. -/
theorem map_re_eval {p q : Array (Dual α)} (h : p.map Dual.first = q.map Dual.first)
    (e : Expression α) : (e.eval p).map Dual.re = (e.eval q).map Dual.re := by
  have hre (x : Except ShapeFault (Dual α)) :
      x.map Dual.re = (x.map Dual.first).map FirstPart.number := by
    rcases x with f | d
    · rfl
    · rfl
  rw [hre, hre, map_eval Dual.isHom_first, map_eval Dual.isHom_first, h]

theorem map_re_dual (e : Expression α) (x s t : α) :
    (e.dual ⟨x, s⟩).map Dual.re = (e.dual ⟨x, t⟩).map Dual.re := by
  apply map_re_eval
  simp [Dual.first]

-- a seed that is no number does not reach the value
example : ((powf (abs (coordinate 0)) 2).dual (⟨-3, 0 / 0⟩ : Dual Float)).map Dual.re = .ok 9 := by
  decide +kernel

/-- The value of a number with a sign is computed from the first part. -/
theorem map_re_signedDual (e : Expression Float) (x s t : Float) :
    (e.signedDual ⟨x, s⟩).map Dual.re = (e.signedDual ⟨x, t⟩).map Dual.re := by
  have hsigned (seed : Float) : (e.signedDual ⟨x, seed⟩).map Dual.re
      = (((e.map SignedFloat.ofFloat).dual ⟨.ofFloat x, .ofFloat seed⟩).map Dual.re).map
          SignedFloat.value := by
    rw [signedDual]
    rcases (e.map SignedFloat.ofFloat).dual ⟨.ofFloat x, .ofFloat seed⟩ with f | d
    · rfl
    · rfl
  rw [hsigned s, hsigned t,
    map_re_dual (e.map SignedFloat.ofFloat) (.ofFloat x) (.ofFloat s) (.ofFloat t)]

/-- **A value and its slope come from one evaluation.**  In any arithmetic, the first part of a
formula over dual numbers does not depend on the seed, so that the residual of a solver made from it
is the first part of the very evaluation whose second part is the derivative.  For doubles this
holds as well if a NaN has a sign. -/
theorem dual_oneEvaluation :
    (∀ (α : Type) [Arithmetic α] (e : Expression α), Dual.OneEvaluation e.dual)
      ∧ ∀ e : Expression Float, Dual.OneEvaluation e.signedDual :=
  ⟨fun _ _ e => .of_value e.map_re_dual, fun e => .of_value e.map_re_signedDual⟩

end Expression

end NewtonMethod
