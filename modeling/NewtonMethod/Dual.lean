/-
NewtonMethod/Dual.lean

Dual numbers `re + eps ε` with `ε² = 0`.

Evaluating a formula at `x + 1 ε` carries the derivative along with the value:
the `ε` part of the result is the derivative at `x`.  Each operation below is
one rule of differentiation, in a fixed arrangement of its products, so that
also the rounding of the derivative is determined:

    (a / b)    computes one reciprocal of `b` and multiplies by it
    f(a)       has the parts  f(re)  and  eps * f'(re)

The first part of a result never depends on the second part of an argument;
the two choices made below (the sign in `abs`, the exponent in `powf`) look at
the first part and at a constant.
-/
import NewtonMethod.Arithmetic

namespace NewtonMethod

/-- A value together with the coefficient of `ε`. -/
structure Dual (α : Type) where
  /-- The value. -/
  re : α
  /-- The derivative carried along. -/
  eps : α
  deriving DecidableEq, Repr

namespace Dual

variable {α : Type} [Arithmetic α]

/-- A constant, whose derivative is zero. -/
def constant (c : α) : Dual α := ⟨c, 0⟩

/-- The variable of differentiation at `x`. -/
def variableAt (x : α) : Dual α := ⟨x, 1⟩

/-- The value of `g` at `x`, from an evaluation over dual numbers. -/
def valueOf {ε : Type} (g : Dual α → Except ε (Dual α)) (x : α) : Except ε α :=
  (g (constant x)).map re

/-- The derivative of `g` at `x`, from an evaluation over dual numbers. -/
def slopeOf {ε : Type} (g : Dual α → Except ε (Dual α)) (x : α) : Except ε α :=
  (g (variableAt x)).map eps

/-- Chain rule: the value `f0` and the slope `f1` of a function, at the first part of `a`. -/
def chain (a : Dual α) (f0 f1 : α) : Dual α := ⟨f0, a.eps * f1⟩

/-! ### The four operations -/

instance : Add (Dual α) := ⟨fun a b => ⟨a.re + b.re, a.eps + b.eps⟩⟩

instance : Sub (Dual α) := ⟨fun a b => ⟨a.re - b.re, a.eps - b.eps⟩⟩

instance : Neg (Dual α) := ⟨fun a => ⟨-a.re, -a.eps⟩⟩

instance : Mul (Dual α) := ⟨fun a b => ⟨a.re * b.re, a.eps * b.re + b.eps * a.re⟩⟩

instance : Div (Dual α) := ⟨fun a b =>
  let inv := 1 / b.re
  ⟨a.re * inv, (a.eps * b.re - b.eps * a.re) * inv * inv⟩⟩

/-! ### Functions of one argument -/

/-- Reciprocal. -/
def recip (a : Dual α) : Dual α :=
  let rec' := 1 / a.re
  a.chain rec' (-rec' * rec')

/-- Square root. -/
def sqrt (a : Dual α) : Dual α :=
  let root := Arithmetic.sqrt a.re
  let half := 1 / Arithmetic.ofNat 2
  a.chain root (root * (1 / a.re) * half)

/-- Exponential. -/
def exp (a : Dual α) : Dual α :=
  let power := Arithmetic.exp a.re
  a.chain power power

/-- Natural logarithm. -/
def ln (a : Dual α) : Dual α := a.chain (Arithmetic.ln a.re) (1 / a.re)

/-- Sine. -/
def sin (a : Dual α) : Dual α := a.chain (Arithmetic.sin a.re) (Arithmetic.cos a.re)

/-- Cosine. -/
def cos (a : Dual α) : Dual α := a.chain (Arithmetic.cos a.re) (-Arithmetic.sin a.re)

/-- Absolute value: a number with its sign bit set is negated, a negative zero included. -/
def abs (a : Dual α) : Dual α := if Arithmetic.isNegative a.re then -a else a

/-- The gap `2 ^ -52` between one and the next double precision number; an exponent that is closer
to two than this counts as two. -/
def spacing : α := 1 / Arithmetic.ofNat 0x10000000000000

/-- Power with a constant exponent.  The exponents 0, 1 and 2 have rules of their own; any other
power is taken three lower and multiplied up, which gives the slope on the way. -/
def powf (a : Dual α) (n : α) : Dual α :=
  if Arithmetic.eq n 0 then constant 1
  else if Arithmetic.eq n 1 then a
  else if Arithmetic.lt (Arithmetic.abs (n - 1 - 1)) spacing then a * a
  else
    let square := Arithmetic.pow a.re (n - 1 - 1 - 1) * a.re * a.re
    a.chain (square * a.re) (square * n)

end Dual

end NewtonMethod
