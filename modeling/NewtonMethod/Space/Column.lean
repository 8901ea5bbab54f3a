/-
NewtonMethod/Space/Column.lean

Columns of any length as points, and tables of any shape as derivatives.

Two columns are subtracted entry by entry and must be equally long.  A system
of linear equations is solved if its table is square and has as many rows as
the right-hand side has entries; any other shape is reported as such, before
the table is looked at.
-/
import NewtonMethod.Norm
import NewtonMethod.Space

namespace NewtonMethod

/-- A table together with its shape. -/
structure Jacobian (α : Type) where
  /-- Number of rows. -/
  rows : Nat
  /-- Number of columns. -/
  cols : Nat
  /-- The entries. -/
  table : Table α rows cols

/-- The table with the given rows, which must be equally long.  Without rows there are no
columns. -/
def Jacobian.ofRows? {α : Type} (rows : List (List α)) : Option (Jacobian α) :=
  let cols := rows.headD [] |>.length
  if h : ∀ row ∈ rows, row.length = cols then
    some ⟨rows.length, cols, Table.ofFn fun i j =>
      have bound : j.val < rows[i].length :=
        Nat.lt_of_lt_of_eq j.isLt (h _ (List.getElem_mem i.isLt)).symm
      rows[i][j]⟩
  else none

namespace Column

variable {α : Type}

/-- Adds a number to one entry. -/
def perturbed [Add α] (x : Array α) (i : Nat) (h : α) : Except ShapeFault (Array α) :=
  if _ : i < x.size then .ok (x.set i (x[i] + h)) else .error (.outOfRange i x.size)

/-- Subtracts entry by entry. -/
def difference [Sub α] (x y : Array α) : Except ShapeFault (Array α) :=
  if x.size = y.size then .ok (x.zipWith (· - ·) y) else .error (.lengths x.size y.size)

/-- The table with the given columns and `rows` rows.  Entries beyond the last row are passed
over; a column that is too short is a fault. -/
def assemble (rows : Nat) (columns : List (Array α)) : Except ShapeFault (Jacobian α) :=
  if h : ∀ column ∈ columns, rows ≤ column.size then
    .ok ⟨rows, columns.length, Table.ofFn fun i j =>
      have bound : i.val < columns[j].size :=
        Nat.lt_of_lt_of_le i.isLt (h _ (List.getElem_mem j.isLt))
      columns[j][i]⟩
  else .error (.tooFew rows)

variable [Arithmetic α]

/-- The Euclidean norm of a column. -/
def norm (x : Array α) : α := Norm.scaled Norm.interleavedSum x.toList

/-- Solves a square system of matching size. -/
def solve (j : Jacobian α) (rhs : Array α) (tolerance : α) : Except LinearFailure (Array α) :=
  if h : j.rows = j.cols ∧ j.rows = rhs.size then
    (Table.solve (h.1 ▸ j.table) ⟨rhs, h.2.symm.trans h.1⟩ tolerance).map Vector.toArray
  else .error (.shape j.rows j.cols rhs.size)

instance : PointSpace (Array α) α (Jacobian α) where
  dimension := Array.size
  norm := norm
  isFinite x := x.all Arithmetic.isFinite
  perturbed := perturbed
  scaled x factor := x.map (· * factor)
  divided x divisor := x.map (· / divisor)
  difference := difference
  coordinates x := x
  assemble reference columns := assemble reference.size columns
  isFiniteDerivative j := j.table.all Arithmetic.isFinite
  solveLinear := solve

end Column

end NewtonMethod
