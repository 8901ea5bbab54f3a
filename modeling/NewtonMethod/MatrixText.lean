/-
NewtonMethod/MatrixText.lean

Columns and tables written on one line: entries are separated by commas, rows
by semicolons, and white space around an entry does not count.

    1,-1; 1,1

Every piece between separators is an entry, so that an empty text has one,
which is not a number.  All rows of a table must be equally long.
-/
import NewtonMethod.Decimal.Reader
import NewtonMethod.Space.Column
import NewtonMethod.Text.Blank

namespace NewtonMethod

/-- Why the arguments of a command make no problem. -/
inductive ArgumentFault where
  /-- An entry does not stand for a number. -/
  | notANumber (entry : String)
  /-- Some row of a table is longer or shorter than the first. -/
  | unequalRows
  /-- The polynomial has no root to search for. -/
  | constantPolynomial
  /-- The table is not square or does not match the right-hand side. -/
  | rightHandSide (rows cols entries : Nat)
  /-- The starting point does not match the right-hand side. -/
  | initialGuess (entries expected : Nat)
  deriving DecidableEq, Repr

namespace MatrixText

/-- One entry. -/
def readEntry (item : List Char) : Except ArgumentFault Float :=
  match readFloat? (Text.trim item) with
  | some x => .ok x
  | none => .error (.notANumber (String.ofList (Text.trim item)))

/-- The entries of a column, or of a row of a table. -/
def readVector (text : List Char) : Except ArgumentFault (List Float) :=
  (text.splitOn ',').mapM readEntry

/-- A table. -/
def readMatrix (text : List Char) : Except ArgumentFault (Jacobian Float) := do
  match Jacobian.ofRows? (← (text.splitOn ';').mapM readVector) with
  | some table => .ok table
  | none => .error .unequalRows

end MatrixText

end NewtonMethod
