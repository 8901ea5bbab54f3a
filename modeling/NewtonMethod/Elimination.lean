/-
NewtonMethod/Elimination.lean

Solving a square system of linear equations by elimination with row exchanges.

`Factors.ofTable` works through the columns from left to right.  In column `i`
it looks for the entry of largest magnitude in row `i` or below (the upper one
on a tie), leaves the column alone if that entry is zero, and otherwise brings
its row into place, divides the entries below it by it, and subtracts from each
lower row its multiple of the pivot row.  The multipliers stay in the places
that were cleared, so that the result holds both triangular factors:

    below the diagonal    the multipliers
    on and above it       the rows that are left

together with the exchanges in the order they were made.  `Table.solve` refuses
a table some of whose diagonal entries is too small in magnitude, and otherwise
replays the exchanges on the right-hand side and substitutes forward and back.
-/
import NewtonMethod.Table

namespace NewtonMethod

/-- Why a linear system has no answer. -/
inductive LinearFailure where
  /-- A pivot is too small. -/
  | singular
  /-- The table is not square or does not have as many rows as the right-hand side. -/
  | shape (rows cols rhs : Nat)
  deriving DecidableEq, Repr

/-- The state of an elimination: both triangular factors in one table, and the row exchanges made
so far, oldest first. -/
structure Factors (α : Type) (n : Nat) where
  /-- Multipliers below the diagonal, reduced rows on and above it. -/
  table : Table α n n
  /-- The exchanges, in order. -/
  swaps : List (Fin n × Fin n)

namespace Factors

variable {α : Type} [Arithmetic α] {n : Nat}

/-! ### Factoring -/

/-- The row from `i` on whose entry in column `i` is largest in magnitude, the first such row. -/
def pivotRow (t : Table α n n) (i : Fin n) : Fin n :=
  ((List.finRange n).filter fun k => i < k).foldl
    (fun best k =>
      if Arithmetic.lt (Arithmetic.abs (t.entry best i)) (Arithmetic.abs (t.entry k i)) then k
      else best)
    i

/-- Clears column `i` below the diagonal, keeping the multipliers in its place. -/
def clearBelow (t : Table α n n) (i : Fin n) : Table α n n :=
  let inv := 1 / t.entry i i
  Table.ofFn fun k j =>
    if i < k then
      if j = i then t.entry k i * inv
      else if i < j then -t.entry i j * (t.entry k i * inv) + t.entry k j
      else t.entry k j
    else t.entry k j

/-- One column of the elimination. -/
def eliminate (f : Factors α n) (i : Fin n) : Factors α n :=
  let p := pivotRow f.table i
  if Arithmetic.isZero (f.table.entry p i) then f
  else ⟨clearBelow (f.table.swapRows i p) i, f.swaps ++ [(i, p)]⟩

/-- The factors of a table. -/
def ofTable (t : Table α n n) : Factors α n := (List.finRange n).foldl eliminate ⟨t, []⟩

/-- The diagonal, on which the solvability of the system is decided. -/
def pivots (f : Factors α n) : List α := (List.finRange n).map fun i => f.table.entry i i

/-- Some pivot has a magnitude at or below the tolerance. -/
def isSingular (f : Factors α n) (tolerance : α) : Bool :=
  f.pivots.any fun p => Arithmetic.le (Arithmetic.abs p) tolerance

/-! ### Substitution -/

/-- The right-hand side with the recorded exchanges made. -/
def permute (f : Factors α n) (b : Vector α n) : Vector α n :=
  f.swaps.foldl (fun b (i, p) => Table.swapEntries b i p) b

/-- Entry `i` is known: its multiples leave the entries below. -/
def forwardStep (t : Table α n n) (b : Vector α n) (i : Fin n) : Vector α n :=
  Vector.ofFn fun k => if i < k then -b.get i * t.entry k i + b.get k else b.get k

/-- Solves with the multipliers, from the first entry down. -/
def forward (t : Table α n n) (b : Vector α n) : Vector α n :=
  (List.finRange n).foldl (forwardStep t) b

/-- Entry `i` is divided by its pivot, and its multiples leave the entries above.  A pivot of zero
has no quotient. -/
def backwardStep (t : Table α n n) (b : Vector α n) (i : Fin n) : Option (Vector α n) :=
  if Arithmetic.isZero (t.entry i i) then none
  else
    let c := b.get i / t.entry i i
    some (Vector.ofFn fun k =>
      if k = i then c else if k < i then -c * t.entry k i + b.get k else b.get k)

/-- Solves with the reduced rows, from the last entry up. -/
def backward (t : Table α n n) (b : Vector α n) : Option (Vector α n) :=
  (List.finRange n).reverse.foldlM (backwardStep t) b

/-- The solution for a right-hand side. -/
def solve (f : Factors α n) (b : Vector α n) : Option (Vector α n) :=
  backward f.table (forward f.table (f.permute b))

end Factors

/-- The solution `d` of `t * d = b`, unless a pivot is at or below the tolerance in magnitude. -/
def Table.solve {α : Type} [Arithmetic α] {n : Nat} (t : Table α n n) (b : Vector α n)
    (tolerance : α) : Except LinearFailure (Vector α n) :=
  let f := Factors.ofTable t
  if f.isSingular tolerance then .error .singular
  else match f.solve b with
    | some d => .ok d
    | none => .error .singular

end NewtonMethod
