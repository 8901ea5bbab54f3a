/-
NewtonMethod/Expression.lean

Formulas in the coordinates of a point.

One evaluator serves numbers and dual numbers: `eval` takes its operations from
the class `Elementary α β`, which says that `β` has the operations of a formula
whose constants are in `α`.  Over `β = α` these are the plain operations, over
`β = Dual α` the rules of differentiation, so a value and its derivative come
from the same formula.

A coordinate that the point does not have is a fault, and it is found when the
evaluation reaches it.
-/
import NewtonMethod.Dual
import NewtonMethod.ShapeFault

namespace NewtonMethod

/-- The operations of a formula on `β`, with constants and exponents in `α`. -/
class Elementary (α : outParam Type) (β : Type) where
  /-- A constant. -/
  constant : α → β
  /-- Sum. -/
  add : β → β → β
  /-- Difference. -/
  sub : β → β → β
  /-- Product. -/
  mul : β → β → β
  /-- Quotient. -/
  div : β → β → β
  /-- Negative. -/
  neg : β → β
  /-- Reciprocal. -/
  recip : β → β
  /-- Square root. -/
  sqrt : β → β
  /-- Exponential. -/
  exp : β → β
  /-- Natural logarithm. -/
  ln : β → β
  /-- Sine. -/
  sin : β → β
  /-- Cosine. -/
  cos : β → β
  /-- Absolute value. -/
  abs : β → β
  /-- Power with a constant exponent. -/
  powf : β → α → β

instance (α : Type) [Arithmetic α] : Elementary α α where
  constant c := c
  add := (· + ·)
  sub := (· - ·)
  mul := (· * ·)
  div := (· / ·)
  neg := (- ·)
  recip x := 1 / x
  sqrt := Arithmetic.sqrt
  exp := Arithmetic.exp
  ln := Arithmetic.ln
  sin := Arithmetic.sin
  cos := Arithmetic.cos
  abs := Arithmetic.abs
  powf := Arithmetic.pow

instance (α : Type) [Arithmetic α] : Elementary α (Dual α) where
  constant := Dual.constant
  add := (· + ·)
  sub := (· - ·)
  mul := (· * ·)
  div := (· / ·)
  neg := (- ·)
  recip := Dual.recip
  sqrt := Dual.sqrt
  exp := Dual.exp
  ln := Dual.ln
  sin := Dual.sin
  cos := Dual.cos
  abs := Dual.abs
  powf := Dual.powf

/-- A formula with constants in `α`. -/
inductive Expression (α : Type) where
  | constant (c : α)
  | coordinate (index : Nat)
  | add (a b : Expression α)
  | sub (a b : Expression α)
  | mul (a b : Expression α)
  | div (a b : Expression α)
  | neg (a : Expression α)
  | recip (a : Expression α)
  | sqrt (a : Expression α)
  | exp (a : Expression α)
  | ln (a : Expression α)
  | sin (a : Expression α)
  | cos (a : Expression α)
  | abs (a : Expression α)
  | powf (a : Expression α) (exponent : α)
  deriving Repr

namespace Expression

variable {α β : Type}

/-- The value of a formula at a point. -/
def eval [Elementary α β] (point : Array β) : Expression α → Except ShapeFault β
  | constant c => .ok (Elementary.constant c)
  | coordinate i => NewtonMethod.coordinate point i
  | add a b => do return Elementary.add (← a.eval point) (← b.eval point)
  | sub a b => do return Elementary.sub (← a.eval point) (← b.eval point)
  | mul a b => do return Elementary.mul (← a.eval point) (← b.eval point)
  | div a b => do return Elementary.div (← a.eval point) (← b.eval point)
  | neg a => do return Elementary.neg (← a.eval point)
  | recip a => do return Elementary.recip (← a.eval point)
  | sqrt a => do return Elementary.sqrt (← a.eval point)
  | exp a => do return Elementary.exp (← a.eval point)
  | ln a => do return Elementary.ln (← a.eval point)
  | sin a => do return Elementary.sin (← a.eval point)
  | cos a => do return Elementary.cos (← a.eval point)
  | abs a => do return Elementary.abs (← a.eval point)
  | powf a n => do return Elementary.powf (← a.eval point) n

/-- The values of several formulas at a point. -/
def evalAll [Elementary α β] (es : List (Expression α)) (point : Array β) :
    Except ShapeFault (Array β) :=
  (es.mapM (eval point)).map List.toArray

variable [Arithmetic α]

/-- The formula as a function of one number. -/
def value (e : Expression α) (x : α) : Except ShapeFault α := e.eval #[x]

/-- The formula as a function of one dual number. -/
def dual (e : Expression α) (x : Dual α) : Except ShapeFault (Dual α) := e.eval #[x]

end Expression

end NewtonMethod
