/-
NewtonMethod/Sinusoid.lean

The functions `a·sin x + b·cos x + c` and their slope.
-/
import NewtonMethod.Arithmetic

namespace NewtonMethod

/-- The function `a·sin x + b·cos x + c`. -/
structure Sinusoid (α : Type) where
  /-- Amplitude of the sine. -/
  a : α
  /-- Amplitude of the cosine. -/
  b : α
  /-- Constant offset. -/
  c : α
  deriving Repr

namespace Sinusoid

variable {α : Type} [Arithmetic α]

/-- The value at `x`. -/
def evaluate (f : Sinusoid α) (x : α) : α :=
  f.a * Arithmetic.sin x + f.b * Arithmetic.cos x + f.c

/-- The derivative `a·cos x - b·sin x` at `x`. -/
def slope (f : Sinusoid α) (x : α) : α :=
  f.a * Arithmetic.cos x - f.b * Arithmetic.sin x

end Sinusoid

end NewtonMethod
