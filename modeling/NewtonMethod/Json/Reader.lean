/-
NewtonMethod/Json/Reader.lean

JSON documents read from text, strictly: one value with white space around it
and nothing else, no control characters inside strings, no leading zeros.

The readers take a list of characters and return what they have read together
with the rest.  Values nest, and the depth of the recursion is bounded by a
number of turns that the length of the text provides.
-/
import NewtonMethod.Json.Document
import NewtonMethod.Text.Hex

namespace NewtonMethod.Json

/-- White space between tokens. -/
def isBlank (c : Char) : Bool := c = ' ' || c = '\t' || c = '\n' || c = '\r'

/-- The rest after white space. -/
def skip (cs : List Char) : List Char := cs.dropWhile isBlank

/-! ### Strings -/

/-- The character that a backslash and a letter stand for. -/
def escaped? : Char → Option Char
  | '"' => some '"'
  | '\\' => some '\\'
  | '/' => some '/'
  | 'b' => some '\x08'
  | 'f' => some '\x0c'
  | 'n' => some '\n'
  | 'r' => some '\r'
  | 't' => some '\t'
  | _ => none

/-- The pieces of a string up to the closing quote: characters, and numbers of 16 bits. -/
def pieces : List Char → Option (List (Char ⊕ Nat) × List Char)
  | [] => none
  | '"' :: rest => some ([], rest)
  | '\\' :: 'u' :: a :: b :: c :: d :: rest => do
    let n := ((← Text.hexDigit? a) * 16 + (← Text.hexDigit? b)) * 256
      + ((← Text.hexDigit? c) * 16 + (← Text.hexDigit? d))
    let (more, rest) ← pieces rest
    return (.inr n :: more, rest)
  | '\\' :: c :: rest => do
    let c ← escaped? c
    let (more, rest) ← pieces rest
    return (.inl c :: more, rest)
  | c :: rest =>
    if c.toNat < 0x20 then none
    else do
      let (more, rest) ← pieces rest
      return (.inl c :: more, rest)

/-- The characters of a string.  Two halves of a surrogate pair make one character, and a half
without its partner makes none. -/
def joinSurrogates : List (Char ⊕ Nat) → Option (List Char)
  | [] => some []
  | .inl c :: rest => (joinSurrogates rest).map (c :: ·)
  | .inr high :: .inr low :: rest =>
    if high < 0xd800 || 0xdfff < high then
      (joinSurrogates (.inr low :: rest)).map (Char.ofNat high :: ·)
    else if high < 0xdc00 && 0xdc00 ≤ low && low ≤ 0xdfff then
      (joinSurrogates rest).map
        (Char.ofNat (0x10000 + (high - 0xd800) * 0x400 + (low - 0xdc00)) :: ·)
    else none
  | .inr n :: rest =>
    if n < 0xd800 || 0xdfff < n then (joinSurrogates rest).map (Char.ofNat n :: ·) else none

/-- A string after its opening quote. -/
def readString? (cs : List Char) : Option (Option String × List Char) :=
  (pieces cs).map fun (ps, rest) => ((joinSurrogates ps).map String.ofList, rest)

/-! ### Numbers -/

/-- A run of digits and the rest. -/
def digits (cs : List Char) : List Char × List Char :=
  (cs.takeWhile Char.isDigit, cs.dropWhile Char.isDigit)

/-- The decimals after a point, if there is one. -/
def fraction? : List Char → Option (List Char × List Char)
  | '.' :: rest => if (digits rest).1.isEmpty then none else some (digits rest)
  | rest => some ([], rest)

/-- The exponent, if there is one. -/
def exponent? : List Char → Option (Option Int × List Char)
  | [] => some (none, [])
  | c :: rest =>
    if c = 'e' || c = 'E' then
      let (sign, rest) := match rest with
        | '-' :: rest => ((-1 : Int), rest)
        | '+' :: rest => (1, rest)
        | rest => (1, rest)
      if (digits rest).1.isEmpty then none
      else some (some (sign * digitsValue (digits rest).1), (digits rest).2)
    else some (none, c :: rest)

/-- A number. -/
def readNumber? (cs : List Char) : Option (Numeral × List Char) := do
  let (negative, cs) := match cs with
    | '-' :: rest => (true, rest)
    | rest => (false, rest)
  let (whole, rest) := match cs with
    | '0' :: rest => (['0'], rest)
    | cs => digits cs
  if whole.isEmpty then none
  else
    let (places, rest) ← fraction? rest
    let (exponent, rest) ← exponent? rest
    return (⟨negative, ⟨digitsValue (whole ++ places), exponent.getD 0 - places.length⟩,
      places.isEmpty && exponent.isNone⟩, rest)

/-! ### Values -/

mutual

/-- A value, in at most the given number of turns. -/
def readValue? : Nat → List Char → Option (Json × List Char)
  | 0, _ => none
  | fuel + 1, cs =>
    match skip cs with
    | 'n' :: 'u' :: 'l' :: 'l' :: rest => some (null, rest)
    | 't' :: 'r' :: 'u' :: 'e' :: rest => some (bool true, rest)
    | 'f' :: 'a' :: 'l' :: 's' :: 'e' :: rest => some (bool false, rest)
    | '"' :: rest => (readString? rest).map fun (s, rest) => (string s, rest)
    | '[' :: rest =>
      match skip rest with
      | ']' :: rest => some (array [], rest)
      | rest => (readItems? fuel rest).map fun (items, rest) => (array items, rest)
    | '{' :: rest =>
      match skip rest with
      | '}' :: rest => some (object [], rest)
      | rest => (readMembers? fuel rest).map fun (members, rest) => (object members, rest)
    | cs => (readNumber? cs).map fun (n, rest) => (number n, rest)

/-- The items of an array, at least one, and its closing bracket. -/
def readItems? : Nat → List Char → Option (List Json × List Char)
  | 0, _ => none
  | fuel + 1, cs => do
    let (item, rest) ← readValue? fuel cs
    match skip rest with
    | ',' :: rest =>
      let (items, rest) ← readItems? fuel rest
      return (item :: items, rest)
    | ']' :: rest => return ([item], rest)
    | _ => none

/-- The members of an object, at least one, and its closing brace. -/
def readMembers? : Nat → List Char → Option (List (Option String × Json) × List Char)
  | 0, _ => none
  | fuel + 1, cs =>
    match skip cs with
    | '"' :: rest => do
      let (name, rest) ← readString? rest
      match skip rest with
      | ':' :: rest =>
        let (item, rest) ← readValue? fuel rest
        match skip rest with
        | ',' :: rest =>
          let (members, rest) ← readMembers? fuel rest
          return ((name, item) :: members, rest)
        | '}' :: rest => return ([(name, item)], rest)
        | _ => none
      | _ => none
    | _ => none

end

/-- The document that a text holds. -/
def read? (text : String) : Option Json :=
  let cs := text.toList
  match readValue? (2 * cs.length + 2) cs with
  | some (value, rest) => if (skip rest).isEmpty then some value else none
  | none => none

end NewtonMethod.Json
