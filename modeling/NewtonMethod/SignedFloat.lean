/-
NewtonMethod/SignedFloat.lean

Double precision numbers in which a NaN has a sign.

IEEE numbers have a sign bit also when they are no numbers, and although no
comparison sees it, the absolute value of a dual number does.  `Float` knows one
NaN only, so the sign is kept beside it.  Three rules fix it: a NaN that goes
into an operation comes out with its sign, the first one if there are two; an
operation that has no result, like the difference of two infinities, gives a
negative one; and negation and absolute value act on the sign as they do on
numbers.

`Expression.signedDual` evaluates a formula over dual numbers of this kind.
-/
import NewtonMethod.Expression

namespace NewtonMethod

/-- A double, and the sign it has if it is no number. -/
structure SignedFloat where
  /-- The number. -/
  value : Float
  /-- If it is no number, it has a minus sign. -/
  isMinus : Bool

namespace SignedFloat

/-- A number as it is given; one that is none has no minus sign. -/
def ofFloat (x : Float) : SignedFloat := ⟨x, false⟩

/-- The result of an operation on some arguments. -/
def result (arguments : List SignedFloat) (value : Float) : SignedFloat :=
  match arguments.find? fun a => a.value.isNaN with
  | some a => ⟨value, a.isMinus⟩
  | none => ⟨value, true⟩

instance : Arithmetic SignedFloat where
  add a b := result [a, b] (a.value + b.value)
  sub a b := result [a, b] (a.value - b.value)
  mul a b := result [a, b] (a.value * b.value)
  div a b := result [a, b] (a.value / b.value)
  neg a := ⟨-a.value, !a.isMinus⟩
  zero := ofFloat 0
  one := ofFloat 1
  ofNat n := ofFloat (Arithmetic.ofNat n)
  nan := ofFloat Arithmetic.nan
  abs a := ⟨Arithmetic.abs a.value, false⟩
  sqrt a := result [a] (Arithmetic.sqrt a.value)
  sin a := result [a] (Arithmetic.sin a.value)
  cos a := result [a] (Arithmetic.cos a.value)
  exp a := result [a] (Arithmetic.exp a.value)
  ln a := result [a] (Arithmetic.ln a.value)
  pow a b := result [a, b] (Arithmetic.pow a.value b.value)
  isFinite a := Arithmetic.isFinite a.value
  isNegative a := if a.value.isNaN then a.isMinus else Arithmetic.isNegative a.value
  eq a b := Arithmetic.eq a.value b.value
  lt a b := Arithmetic.lt a.value b.value
  le a b := Arithmetic.le a.value b.value

end SignedFloat

namespace Expression

/-- The formula with other constants. -/
def map {α β : Type} (f : α → β) : Expression α → Expression β
  | constant c => constant (f c)
  | coordinate i => coordinate i
  | add a b => add (a.map f) (b.map f)
  | sub a b => sub (a.map f) (b.map f)
  | mul a b => mul (a.map f) (b.map f)
  | div a b => div (a.map f) (b.map f)
  | neg a => neg (a.map f)
  | recip a => recip (a.map f)
  | sqrt a => sqrt (a.map f)
  | exp a => exp (a.map f)
  | ln a => ln (a.map f)
  | sin a => sin (a.map f)
  | cos a => cos (a.map f)
  | abs a => abs (a.map f)
  | powf a n => powf (a.map f) (f n)

/-- The formula as a function of one dual number, with the signs of what is no number. -/
def signedDual (e : Expression Float) (x : Dual Float) : Except ShapeFault (Dual Float) := do
  let y ← (e.map SignedFloat.ofFloat).dual ⟨.ofFloat x.re, .ofFloat x.eps⟩
  return ⟨y.re.value, y.eps.value⟩

end Expression

end NewtonMethod
