/-
NewtonMethod/Norm.lean

The Euclidean norm of a list of coordinates, without overflow on the way.

The coordinates are divided by the largest magnitude among them before they are
squared, and the root of the sum is multiplied by it again.  In what order the
squares are added is part of the definition, since rounded sums depend on it:
long lists are summed in eight interleaved lanes, and lists of two to four
entries of a known size by fixed formulas.
-/
import NewtonMethod.Arithmetic

namespace NewtonMethod.Norm

variable {α : Type} [Arithmetic α]

/-- The largest magnitude in a list, zero for the empty list. -/
def largest : List α → α
  | [] => 0
  | x :: xs =>
    xs.foldl (fun acc y => Arithmetic.larger acc (Arithmetic.abs y)) (Arithmetic.abs x)

/-- Sums a list in eight lanes: entry `i` goes to lane `i mod 8` while eight entries are left, the
lanes are added in pairs, and the last entries are added one by one. -/
def lanes (a0 a1 a2 a3 a4 a5 a6 a7 : α) : List α → α
  | p0 :: p1 :: p2 :: p3 :: p4 :: p5 :: p6 :: p7 :: rest =>
    lanes (a0 + p0) (a1 + p1) (a2 + p2) (a3 + p3) (a4 + p4) (a5 + p5) (a6 + p6) (a7 + p7) rest
  | rest => rest.foldl (· + ·) (0 + (a0 + a4) + (a1 + a5) + (a2 + a6) + (a3 + a7))

/-- The sum for lists of any length. -/
def interleavedSum (ps : List α) : α := lanes 0 0 0 0 0 0 0 0 ps

/-- The sum for a length that is fixed in advance: two, three and four entries have formulas of
their own. -/
def shortSum : List α → α
  | [p0, p1] => p0 + p1
  | [p0, p1, p2] => p0 + p1 + p2
  | [p0, p1, p2, p3] => (p0 + p2) + (p1 + p3)
  | ps => interleavedSum ps

/-- The Euclidean norm, with the squares added by `sum`.  A largest magnitude that is zero or not
finite is the norm itself. -/
def scaled (sum : List α → α) (xs : List α) : α :=
  let scale := largest xs
  if Arithmetic.isZero scale || !Arithmetic.isFinite scale then scale
  else
    let us := xs.map (· / scale)
    scale * Arithmetic.sqrt (sum (us.map fun u => u * u))

end NewtonMethod.Norm
