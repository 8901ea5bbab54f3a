/-
NewtonMethod/Toml/Scalar.lean

The single values of a TOML document: strings in four forms, numbers in five,
truth values, dates and times.

Each reader takes the characters from the start of a value on and returns the
value with the characters after it.
-/
import NewtonMethod.Text.Hex
import NewtonMethod.Toml.Document

namespace NewtonMethod.Toml

/-! ### Characters -/

/-- A space or a tabulator. -/
def isSpace (c : Char) : Bool := c = ' ' || c = '\t'

/-- The rest after spaces. -/
def skipSpaces (cs : List Char) : List Char := cs.dropWhile isSpace

/-- A line end, and the rest after it. -/
def newline? : List Char → Option (List Char)
  | '\n' :: rest => some rest
  | '\r' :: '\n' :: rest => some rest
  | _ => none

/-- A character that may stand in a comment, and in a string as itself, apart from the quotes and
the backslash. -/
def isTextChar (c : Char) : Bool := c = '\t' || (0x20 ≤ c.toNat && c.toNat ≠ 0x7f)

/-- The rest after a comment, if there is one. -/
def skipComment : List Char → List Char
  | '#' :: rest => rest.dropWhile isTextChar
  | cs => cs

/-- The rest after spaces, comments and line ends. -/
def skipLines (cs : List Char) : List Char := go (cs.length + 1) cs
where
  go : Nat → List Char → List Char
    | 0, cs => cs
    | fuel + 1, cs =>
      let rest := skipComment (skipSpaces cs)
      match newline? rest with
      | some rest => go fuel rest
      | none => rest

/-! ### Strings -/

/-- The character whose number is given by hexadecimal digits. -/
def charOfHex? (ds : List Char) : Option Char := do
  Text.charOfNumber? (← ds.foldlM (fun n d => (Text.hexDigit? d).map (16 * n + ·)) 0)

/-- The character after a backslash, and the rest. -/
def escape? : List Char → Option (Char × List Char)
  | 'b' :: rest => some ('\x08', rest)
  | 't' :: rest => some ('\t', rest)
  | 'n' :: rest => some ('\n', rest)
  | 'f' :: rest => some ('\x0c', rest)
  | 'r' :: rest => some ('\r', rest)
  | '"' :: rest => some ('"', rest)
  | '\\' :: rest => some ('\\', rest)
  | 'u' :: rest =>
    if rest.length < 4 then none else (charOfHex? (rest.take 4)).map (·, rest.drop 4)
  | 'U' :: rest =>
    if rest.length < 8 then none else (charOfHex? (rest.take 8)).map (·, rest.drop 8)
  | _ => none

/-- The rest after spaces and line ends. -/
def skipGap : List Char → List Char
  | [] => []
  | '\r' :: '\n' :: rest => skipGap rest
  | c :: rest => if isSpace c || c = '\n' then skipGap rest else c :: rest

/-- The rest after a backslash at the end of a line: spaces and line ends up to the next text do not
count. -/
def skipFolded (cs : List Char) : Option (List Char) := (newline? (skipSpaces cs)).map skipGap

/-- The characters of a string between single or double quotes, in at most the given number of
turns. -/
def quoted? (quote : Char) : Nat → List Char → Option (List Char × List Char)
  | 0, _ => none
  | _, [] => none
  | fuel + 1, c :: rest =>
    if c = quote then some ([], rest)
    else if c = '\\' && quote = '"' then do
      let (c, rest) ← escape? rest
      let (more, rest) ← quoted? quote fuel rest
      return (c :: more, rest)
    else if isTextChar c then do
      let (more, rest) ← quoted? quote fuel rest
      return (c :: more, rest)
    else none

/-- The characters of a string between triple quotes.  Up to two quotes may stand directly before
the closing three. -/
def tripleQuoted? (quote : Char) : Nat → List Char → Option (List Char × List Char)
  | 0, _ => none
  | _, [] => none
  | fuel + 1, c :: rest =>
    let next (c : Char) (rest : List Char) : Option (List Char × List Char) := do
      let (more, rest) ← tripleQuoted? quote fuel rest
      return (c :: more, rest)
    if c = quote then
      let run := (c :: rest).takeWhile (· = quote)
      if run.length < 3 then next c rest
      else if run.length ≤ 5 then some (run.drop 3, (c :: rest).drop run.length)
      else none
    else if c = '\\' && quote = '"' then
      match skipFolded rest with
      | some rest => tripleQuoted? quote fuel rest
      | none => do
        let (c, rest) ← escape? rest
        next c rest
    else
      match newline? (c :: rest) with
      | some rest => next '\n' rest
      | none => if isTextChar c then next c rest else none

/-- Characters that have been read, as a text. -/
def textOf (read : Option (List Char × List Char)) : Option (String × List Char) :=
  read.map fun (text, rest) => (String.ofList text, rest)

/-- A string in any form. -/
def readString? (cs : List Char) : Option (String × List Char) :=
  let triple (quote : Char) (rest : List Char) : Option (String × List Char) :=
    let rest := (newline? rest).getD rest
    textOf (tripleQuoted? quote (rest.length + 1) rest)
  match cs with
  | '"' :: '"' :: '"' :: rest => triple '"' rest
  | '\'' :: '\'' :: '\'' :: rest => triple '\'' rest
  | '"' :: rest => textOf (quoted? '"' (rest.length + 1) rest)
  | '\'' :: rest => textOf (quoted? '\'' (rest.length + 1) rest)
  | _ => none

/-! ### Numbers -/

/-- A run of digits, single underscores between them being dropped. -/
def digitRun? (isDigit : Char → Bool) (cs : List Char) : Option (List Char × List Char) :=
  match cs with
  | [] => none
  | c :: rest => if isDigit c then some (go c rest) else none
where
  go (last : Char) : List Char → List Char × List Char
    | [] => ([last], [])
    | '_' :: c :: rest =>
      if isDigit c then
        let (more, rest) := go c rest
        (last :: more, rest)
      else ([last], '_' :: c :: rest)
    | c :: rest =>
      if isDigit c then
        let (more, rest) := go c rest
        (last :: more, rest)
      else ([last], c :: rest)

/-- An optional sign. -/
def sign : List Char → Bool × List Char
  | '-' :: rest => (true, rest)
  | '+' :: rest => (false, rest)
  | cs => (false, cs)

/-- Whole numbers lie between `-2 ^ 63` and `2 ^ 63`, the latter excluded. -/
def integerLimit : Nat := 0x8000000000000000

/-- The whole number with the given digits in a base, within its limits. -/
def integer? (negative : Bool) (base : Nat) (ds : List Char) : Option Toml :=
  let n := ds.foldl (fun n d => base * n + (Text.hexDigit? d).getD 0) 0
  if negative then
    if n ≤ integerLimit then some (.integer (-(n : Int))) else none
  else if n < integerLimit then some (.integer n) else none

/-- A whole number in another base, after its mark. -/
def readBased? (base : Nat) (isDigit : Char → Bool) (cs : List Char) :
    Option (Toml × List Char) := do
  let (ds, rest) ← digitRun? isDigit cs
  return (← integer? false base ds, rest)

/-- The decimals after a point, if there is one. -/
def fraction? : List Char → Option (Option (List Char) × List Char)
  | '.' :: rest => do
    let (ds, rest) ← digitRun? Char.isDigit rest
    return (some ds, rest)
  | cs => some (none, cs)

/-- The exponent, if there is one. -/
def exponent? : List Char → Option (Option Int × List Char)
  | [] => some (none, [])
  | c :: rest =>
    if c = 'e' || c = 'E' then do
      let (negative, rest) := sign rest
      let (ds, rest) ← digitRun? Char.isDigit rest
      return (some (if negative then -digitsValue ds else digitsValue ds), rest)
    else some (none, c :: rest)

/-- A decimal number, whole or real.  A real number must not exceed the range upwards. -/
def readDecimal? (cs : List Char) : Option (Toml × List Char) := do
  let (negative, cs) := sign cs
  let (whole, rest) ← match cs with
    | '0' :: rest => some (['0'], rest)
    | cs => digitRun? Char.isDigit cs
  let (places, rest) ← fraction? rest
  let (power, rest) ← exponent? rest
  if places.isNone && power.isNone then return (← integer? negative 10 whole, rest)
  else
    let places := places.getD []
    let x := Decimal.toFloat negative
      ⟨digitsValue (whole ++ places), power.getD 0 - places.length⟩
    if Decimal.toFloat false ⟨1, 400⟩ == x then none else return (.real x, rest)

/-- A number. -/
def readNumber? (cs : List Char) : Option (Toml × List Char) :=
  match cs with
  | '0' :: 'x' :: rest => readBased? 16 (fun c => (Text.hexDigit? c).isSome) rest
  | '0' :: 'o' :: rest => readBased? 8 (fun c => '0' ≤ c && c ≤ '7') rest
  | '0' :: 'b' :: rest => readBased? 2 (fun c => c = '0' || c = '1') rest
  | cs =>
    match sign cs with
    | (negative, 'i' :: 'n' :: 'f' :: rest) =>
      some (.real (if negative then -1 / 0 else 1 / 0), rest)
    | (_, 'n' :: 'a' :: 'n' :: rest) => some (.real (0 / 0), rest)
    | _ => readDecimal? cs

/-! ### Dates and times -/

/-- A number of exactly `width` digits between two limits. -/
def digitsBetween? (width low high : Nat) (cs : List Char) : Option (Nat × List Char) :=
  let ds := cs.take width
  let n := digitsValue ds
  if ds.length = width && ds.all Char.isDigit && low ≤ n && n ≤ high then some (n, cs.drop width)
  else none

/-- A character that has to be there. -/
def expect? (c : Char) : List Char → Option (List Char)
  | [] => none
  | d :: rest => if c = d then some rest else none

/-- Number of days of a month. -/
def daysIn (year month : Nat) : Nat :=
  if month = 2 then
    if (year % 4 = 0 && year % 100 ≠ 0) || year % 400 = 0 then 29 else 28
  else if month = 4 || month = 6 || month = 9 || month = 11 then 30
  else 31

/-- The rest after a date. -/
def date? (cs : List Char) : Option (List Char) := do
  let (year, rest) ← digitsBetween? 4 0 9999 cs
  let (month, rest) ← digitsBetween? 2 1 12 (← expect? '-' rest)
  let (_, rest) ← digitsBetween? 2 1 (daysIn year month) (← expect? '-' rest)
  return rest

/-- The rest after a time of day. -/
def time? (cs : List Char) : Option (List Char) := do
  let (_, rest) ← digitsBetween? 2 0 23 cs
  let (_, rest) ← digitsBetween? 2 0 59 (← expect? ':' rest)
  let (_, rest) ← digitsBetween? 2 0 60 (← expect? ':' rest)
  match rest with
  | '.' :: c :: more => return if c.isDigit then more.dropWhile Char.isDigit else rest
  | _ => return rest

/-- The rest after a time zone, if there is one. -/
def zone? : List Char → Option (List Char)
  | 'Z' :: rest => some rest
  | 'z' :: rest => some rest
  | c :: rest =>
    if c = '+' || c = '-' then do
      let (_, rest) ← digitsBetween? 2 0 23 rest
      let (_, rest) ← digitsBetween? 2 0 59 (← expect? ':' rest)
      return rest
    else some (c :: rest)
  | [] => some []

/-- A date, a time, or both. -/
def readMoment? (cs : List Char) : Option (Toml × List Char) :=
  match date? cs with
  | none => (time? cs).map (.moment, ·)
  | some rest =>
    match rest with
    | c :: more =>
      if c = 'T' || c = 't' then ((time? more).bind zone?).map (.moment, ·)
      else if c = ' ' then
        match time? more with
        | some rest => (zone? rest).map (.moment, ·)
        | none => some (.moment, rest)
      else some (.moment, rest)
    | [] => some (.moment, [])

/-- A value that is not made of others. -/
def readScalar? (cs : List Char) : Option (Toml × List Char) :=
  match cs with
  | '"' :: _ => (readString? cs).map fun (s, rest) => (.string s, rest)
  | '\'' :: _ => (readString? cs).map fun (s, rest) => (.string s, rest)
  | 't' :: 'r' :: 'u' :: 'e' :: rest => some (.boolean true, rest)
  | 'f' :: 'a' :: 'l' :: 's' :: 'e' :: rest => some (.boolean false, rest)
  | cs => (readMoment? cs).or (readNumber? cs)

end NewtonMethod.Toml
