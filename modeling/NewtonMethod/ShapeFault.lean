/-
NewtonMethod/ShapeFault.lean

Using points and columns of unequal sizes together is a mistake of the caller that no
result can stand for.  Each operation that can meet it says so in its type,
`Except ShapeFault`, and a fault ends the whole computation it occurs in.
-/
namespace NewtonMethod

/-- A use of coordinates that do not exist. -/
inductive ShapeFault where
  /-- A coordinate was asked for beyond the last one. -/
  | outOfRange (index size : Nat)
  /-- Two lists of coordinates that have to pair up have unequal lengths. -/
  | lengths (left right : Nat)
  /-- Fewer entries or columns than needed were given. -/
  | tooFew (needed : Nat)
  deriving DecidableEq, Repr

/-- Coordinate `i` of a list, or a fault. -/
def coordinate {α : Type} (x : Array α) (i : Nat) : Except ShapeFault α :=
  if h : i < x.size then .ok x[i] else .error (.outOfRange i x.size)

end NewtonMethod
