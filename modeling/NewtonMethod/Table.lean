/-
NewtonMethod/Table.lean

Rectangular tables of numbers, stored row by row.

A table is built with `ofFn` from a formula for its entries, each of which is
then computed once and kept.  The operations of elimination are written that
way: the entries of the new table in terms of the entries of the old one.
-/
import NewtonMethod.Arithmetic
import NewtonMethod.ShapeFault

namespace NewtonMethod

/-- A table with `m` rows and `n` columns. -/
abbrev Table (α : Type) (m n : Nat) := Vector (Vector α n) m

namespace Table

variable {α β : Type} {m n : Nat}

/-- The table with the given entries. -/
def ofFn (f : Fin m → Fin n → α) : Table α m n := Vector.ofFn fun i => Vector.ofFn (f i)

/-- The entry in row `i` and column `j`. -/
def entry (t : Table α m n) (i : Fin m) (j : Fin n) : α := t[i][j]

@[simp] theorem entry_ofFn (f : Fin m → Fin n → α) (i : Fin m) (j : Fin n) :
    (ofFn f).entry i j = f i j := by
  simp [entry, ofFn]

theorem ext {s t : Table α m n} (h : ∀ i j, s.entry i j = t.entry i j) : s = t := by
  apply Vector.ext
  intro i hi
  apply Vector.ext
  intro j hj
  exact h ⟨i, hi⟩ ⟨j, hj⟩

/-- All entries pass a test. -/
def all (t : Table α m n) (p : α → Bool) : Bool := t.toList.all fun row => row.toList.all p

/-- The index that `k` stands for after the places `i` and `p` have changed their contents. -/
def exchanged {n : Nat} (i p k : Fin n) : Fin n := if k = i then p else if k = p then i else k

/-- The table with rows `i` and `p` exchanged. -/
def swapRows (t : Table α m n) (i p : Fin m) : Table α m n :=
  ofFn fun k j => t.entry (exchanged i p k) j

/-- The list with entries `i` and `p` exchanged. -/
def swapEntries (b : Vector α n) (i p : Fin n) : Vector α n :=
  Vector.ofFn fun k => b[exchanged i p k]

variable [Arithmetic α]

/-- One entry of a product with a column: the first product, then each further one added on the
left.  An empty row gives zero. -/
def rowTimes (row x : List α) : α :=
  match row, x with
  | a :: row, b :: x => (row.zip x).foldl (fun y (c, d) => c * d + y) (a * b)
  | _, _ => 0

/-- The product of a table with a column. -/
def times (t : Table α m n) (x : Vector α n) : Vector α m :=
  Vector.ofFn fun i => rowTimes t[i].toList x.toList

end Table

end NewtonMethod
