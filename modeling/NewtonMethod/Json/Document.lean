/-
NewtonMethod/Json/Document.lean

JSON documents.

A number keeps its decimal value and whether it was written as a whole number,
because a count has to be written as one while a real number may be written
either way.  A string whose escapes leave half of a surrogate pair is part of a
well-formed document but has no text.
-/
import NewtonMethod.Decimal.Reader
import NewtonMethod.Document

namespace NewtonMethod

/-- A number as it is written. -/
structure Numeral where
  /-- There is a minus sign. -/
  negative : Bool
  /-- The value without its sign. -/
  magnitude : Decimal
  /-- There is neither a point nor an exponent. -/
  isWhole : Bool
  deriving DecidableEq, Repr

/-- A JSON document.  Members of an object keep their order, and repeated names are kept. -/
inductive Json where
  | null
  | bool (b : Bool)
  | number (n : Numeral)
  | string (text : Option String)
  | array (items : List Json)
  | object (members : List (Option String × Json))
  deriving Repr

namespace Json

/-! ### Writing -/

/-- A count. -/
def ofCount (n : Nat) : Json := number ⟨false, ⟨n, 0⟩, true⟩

/-- A real number; one that is not finite has no numeral and becomes `null`. -/
def ofReal (x : Float) : Json :=
  match Binary.ofFloat x with
  | .finite negative m q => number ⟨negative, Decimal.shortest m q, false⟩
  | _ => null

/-- A list of real numbers. -/
def ofReals (xs : Array Float) : Json := array (xs.toList.map ofReal)

/-- A text. -/
def ofText (s : String) : Json := string (some s)

/-- An object. -/
def ofMembers (members : List (String × Json)) : Json :=
  object (members.map fun (k, v) => (some k, v))

/-! ### Reading -/

/-- A finite real number, written in any way. -/
def toReal? : Json → Option Float
  | number n =>
    let x := n.magnitude.toFloat n.negative
    if x.isFinite then some x else none
  | _ => none

/-- A count, written as a whole number without a sign. -/
def toCount? : Json → Option Nat
  | number n =>
    if n.isWhole && !n.negative && n.magnitude.digits < countLimit then some n.magnitude.digits
    else none
  | _ => none

/-- A text. -/
def toText? : Json → Option String
  | string text => text
  | _ => none

/-- A list of finite real numbers. -/
def toReals? : Json → Option (Array Float)
  | array items => (items.mapM toReal?).map List.toArray
  | _ => none

/-- A name from a list of names, as a text or as an object whose only member has that name and
holds nothing. -/
def toName? : Json → Option String
  | string text => text
  | object [(name, null)] => name
  | _ => none

/-- The values of the named fields, in the order of the names, where a field may be absent.  An
object may have further members, but each of the names only once.  An array gives the first
fields in order and must not be longer than the list of names. -/
def fields? (names : List String) : Json → Option (List (Option Json))
  | object members =>
    if members.any fun m => m.1.isNone then none
    else names.mapM fun name =>
      match members.filter fun m => m.1 = some name with
      | [] => some none
      | [m] => some (some m.2)
      | _ => none
  | array items =>
    if names.length < items.length then none
    else some (items.map some ++ List.replicate (names.length - items.length) none)
  | _ => none

/-- The document says that there is no value. -/
def isNull : Json → Bool
  | null => true
  | _ => false

instance : Document Json where
  fields? := fields?
  real? := toReal?
  count? := toCount?
  text? := toText?
  name? := toName?
  isNull := isNull

end Json

end NewtonMethod
