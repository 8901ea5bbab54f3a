/-
NewtonMethod/Document.lean

What a configuration needs of the document it is read from, whatever the
document's format.
-/
namespace NewtonMethod

/-- Documents of type `D`, whose parts can be read as values. -/
class Document (D : Type) where
  /-- The values of the named fields, in the order of the names, where a field may be absent. -/
  fields? : List String → D → Option (List (Option D))
  /-- A real number. -/
  real? : D → Option Float
  /-- A count. -/
  count? : D → Option Nat
  /-- A text. -/
  text? : D → Option String
  /-- One name out of a list of names. -/
  name? : D → Option String
  /-- The part says that there is no value. -/
  isNull : D → Bool

end NewtonMethod
