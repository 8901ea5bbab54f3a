/-
NewtonMethod/Pattern/Reader.lean

Patterns read from text.

The text comes from between braces and therefore holds no closing brace, so what
would need one, like a number of repetitions, is refused as soon as its opening
brace is met.  A brace in a set or after a backslash is a character like others.

Readers take the characters from the start of a part on and return the part with
the characters after it.  Most of them are told whether blanks are skipped.
-/
import NewtonMethod.Pattern.Syntax
import NewtonMethod.Text.Alphanumeric
import NewtonMethod.Text.Blank
import NewtonMethod.Text.Hex

namespace NewtonMethod.Pattern

/-! ### Blanks -/

/-- The rest after white space and comments, the first characters being those of a comment or
not. -/
def skipBlanks : (inComment : Bool) → List Char → List Char
  | _, [] => []
  | true, c :: cs => skipBlanks (c ≠ '\n') cs
  | false, c :: cs =>
    if Text.isBlank c then skipBlanks false cs
    else if c = '#' then skipBlanks true cs
    else c :: cs

/-- The rest after blanks, if they are skipped. -/
def skip (blanks : Bool) (cs : List Char) : List Char := if blanks then skipBlanks false cs else cs

/-- The next character.  If blanks are skipped, white space is passed over, and so is the sign of a
comment, but not the comment itself. -/
def next? (blanks : Bool) (cs : List Char) : Option Char :=
  if blanks then
    match cs.dropWhile Text.isBlank with
    | '#' :: comment => (comment.dropWhile Text.isBlank).head?.or cs.head?
    | [] => cs.head?
    | c :: _ => some c
  else cs.head?

/-! ### Characters after a backslash -/

/-- A number of exactly so many hexadecimal digits, after those that have been read. -/
def readHex? (blanks : Bool) :
    (count : Nat) → (soFar : Nat) → List Char → Option (Nat × List Char)
  | 0, n, cs => some (n, cs)
  | count + 1, n, cs =>
    match skip blanks cs with
    | [] => none
    | c :: rest =>
      match Text.hexDigit? c with
      | some d => readHex? blanks count (16 * n + d) rest
      | none => none

/-- The character with a number of so many hexadecimal digits. -/
def readNumbered? (blanks : Bool) (count : Nat) (isByte : Bool) (cs : List Char) :
    Option (Pattern × List Char) := do
  let (n, rest) ← readHex? blanks count 0 cs
  return (char (← Text.charOfNumber? n) isByte, rest)

/-- A property with a name of one letter. -/
def readProperty? (blanks : Bool) (cs : List Char) : Option (Pattern × List Char) :=
  match skip blanks cs with
  | [] => none
  | c :: rest => if c = '\\' || c = '\x7b' then none else some (property, rest)

/-- What a backslash and the characters after it stand for.  Any sign of ASCII stands for itself but
the angle brackets; letters and digits only have the meanings listed. -/
def readEscape? (blanks : Bool) : List Char → Option (Pattern × List Char)
  | [] => none
  | 'x' :: rest => readNumbered? blanks 2 true rest
  | 'u' :: rest => readNumbered? blanks 4 false rest
  | 'U' :: rest => readNumbered? blanks 8 false rest
  | 'p' :: rest => readProperty? blanks rest
  | 'P' :: rest => readProperty? blanks rest
  | 'd' :: rest => some (shorthand false, rest)
  | 's' :: rest => some (shorthand false, rest)
  | 'w' :: rest => some (shorthand false, rest)
  | 'D' :: rest => some (shorthand true, rest)
  | 'S' :: rest => some (shorthand true, rest)
  | 'W' :: rest => some (shorthand true, rest)
  | 'a' :: rest => some (char '\x07' false, rest)
  | 't' :: rest => some (char '\t' false, rest)
  | 'n' :: rest => some (char '\n' false, rest)
  | 'v' :: rest => some (char '\x0b' false, rest)
  | 'f' :: rest => some (char '\x0c' false, rest)
  | 'r' :: rest => some (char '\r' false, rest)
  | 'A' :: rest => some (edge, rest)
  | 'z' :: rest => some (edge, rest)
  | 'b' :: rest => some (wordEdge, rest)
  | 'B' :: rest => some (wordEdge, rest)
  | '<' :: rest => some (wordEdge, rest)
  | '>' :: rest => some (wordEdge, rest)
  | c :: rest => if c.toNat < 0x80 && !c.isAlphanum then some (char c false, rest) else none

/-! ### Sets -/

/-- The names of sets. -/
def setNames : List String :=
  ["alnum", "alpha", "ascii", "blank", "cntrl", "digit", "graph", "lower", "print", "punct",
   "space", "upper", "word", "xdigit"]

/-- The rest of a set with a name, after its bracket. -/
def readNamed? : List Char → Option (CharSet × List Char)
  | ':' :: cs =>
    let (negated, cs) := match cs with
      | '^' :: cs => (true, cs)
      | cs => (false, cs)
    let name := cs.takeWhile (· ≠ ':')
    match cs.drop name.length with
    | ':' :: ']' :: rest =>
      if setNames.contains (String.ofList name) then some (.named negated, rest) else none
    | _ => none
  | _ => none

/-- A character of a set, or what a backslash in a set stands for. -/
def readSetAtom? (blanks : Bool) : List Char → Option (Pattern × List Char)
  | [] => none
  | '\\' :: rest => readEscape? blanks rest
  | c :: rest => some (char c false, rest)

/-- The entry of a set that a pattern is; places are none. -/
def CharSet.ofPattern? : Pattern → Option CharSet
  | .char c _ => some (.char c)
  | .shorthand negated => some (.shorthand negated)
  | .property => some .property
  | _ => none

/-- An entry of a set, which may be a range.  A minus sign before another one or before the end of
the set makes no range. -/
def readEntry? (blanks : Bool) (cs : List Char) : Option (CharSet × List Char) := do
  let (first, rest) ← readSetAtom? blanks cs
  match skip blanks rest with
  | [] => none
  | '-' :: more =>
    if next? blanks more = some ']' || next? blanks more = some '-' then
      (CharSet.ofPattern? first).map (·, '-' :: more)
    else
      let (second, rest) ← readSetAtom? blanks (skip blanks more)
      match first, second with
      | char low _, char high _ => if low ≤ high then some (.range low high, rest) else none
      | _, _ => none
  | rest => (CharSet.ofPattern? first).map (·, rest)

/-- Minus signs, at most so many. -/
def readDashes (blanks : Bool) : Nat → List Char → List CharSet × List Char
  | fuel + 1, '-' :: cs =>
    let (dashes, rest) := readDashes blanks fuel (skip blanks cs)
    (.char '-' :: dashes, rest)
  | _, cs => ([], cs)

/-- The start of a set after its bracket: a circumflex, and minus signs or one closing bracket that
stand for themselves. -/
def readSetStart (blanks : Bool) (cs : List Char) : Bool × List CharSet × List Char :=
  let (negated, cs) := match skip blanks cs with
    | '^' :: cs => (true, skip blanks cs)
    | cs => (false, cs)
  match readDashes blanks cs.length cs with
  | ([], ']' :: rest) => (negated, [.char ']'], skip blanks rest)
  | (dashes, rest) => (negated, dashes, rest)

/-- The set with the entries since the last combining sign, last one first, and what stands before
that sign. -/
def CharSet.close (before : Option CharSet) (entries : List CharSet) : CharSet :=
  let set := ofEntries entries.reverse
  match before with
  | none => set
  | some left => combined left set

/-- The rest of a set, in at most so many turns. -/
def readSetRest? (blanks : Bool) :
    Nat → (before : Option CharSet) → (entries : List CharSet) → List Char →
      Option (CharSet × List Char)
  | 0, _, _, _ => none
  | fuel + 1, before, entries, cs =>
    let combining := some (CharSet.close before entries)
    match skip blanks cs with
    | [] => none
    | ']' :: rest => some (CharSet.close before entries, rest)
    | '&' :: '&' :: rest => readSetRest? blanks fuel combining [] rest
    | '-' :: '-' :: rest => readSetRest? blanks fuel combining [] rest
    | '~' :: '~' :: rest => readSetRest? blanks fuel combining [] rest
    | '[' :: rest =>
      match readNamed? rest with
      | some (entry, rest) => readSetRest? blanks fuel before (entry :: entries) rest
      | none => do
        let (negated, start, rest) := readSetStart blanks rest
        let (inner, rest) ← readSetRest? blanks fuel none start rest
        readSetRest? blanks fuel before (.bracketed negated inner :: entries) rest
    | cs => do
      let (entry, rest) ← readEntry? blanks cs
      readSetRest? blanks fuel before (entry :: entries) rest

/-- A set after its bracket. -/
def readSet? (blanks : Bool) (cs : List Char) : Option (Pattern × List Char) := do
  let (negated, start, rest) := readSetStart blanks cs
  let (inner, rest) ← readSetRest? blanks (rest.length + 1) none start rest
  return (set (.bracketed negated inner), rest)

/-! ### Groups -/

/-- A row of flags up to the sign after it, which is a colon or a closing parenthesis.  The flags
read so far are given with the last one first. -/
def readFlags? : (soFar : Flags) → List Char → Option (Flags × Char × List Char)
  | _, [] => none
  | soFar, c :: rest =>
    if c = ':' || c = ')' then
      if soFar.head? = some .minus then none else some (soFar.reverse, c, rest)
    else
      match if c = '-' then some .minus else (Flag.ofChar? c).map .flag with
      | some sign => if soFar.contains sign then none else readFlags? (sign :: soFar) rest
      | none => none

/-- A name of a group: a letter or a low line, and then letters, digits and a few signs. -/
def isGroupName : List Char → Bool
  | [] => false
  | c :: cs =>
    (c = '_' || Text.isLetter c)
      && cs.all fun c => c = '_' || c = '.' || c = '[' || c = ']' || Text.isAlphanumeric c

/-- What an opening parenthesis begins. -/
inductive Opening where
  /-- Nothing: it only holds flags, and has been closed. -/
  | switch (flags : Flags)
  /-- A group. -/
  | group (flags : Flags)

/-- The name of a group and the angle bracket after it.  No two groups have the same name. -/
def readGroupName? (names : List String) (cs : List Char) :
    Option (Opening × List String × List Char) :=
  let name := cs.takeWhile (· ≠ '>')
  match cs.drop name.length with
  | '>' :: rest =>
    if isGroupName name && !names.contains (String.ofList name) then
      some (.group [], String.ofList name :: names, rest)
    else none
  | _ => none

/-- What follows an opening parenthesis, up to the first part of the group. -/
def readOpening? (names : List String) (cs : List Char) :
    Option (Opening × List String × List Char) :=
  match cs with
  | '?' :: 'P' :: '<' :: rest => readGroupName? names rest
  | '?' :: '<' :: rest => readGroupName? names rest
  | '?' :: rest => do
    let (flags, sign, rest) ← readFlags? [] rest
    if sign = ':' then some (.group flags, names, rest)
    else if flags.isEmpty then none
    else some (.switch flags, names, rest)
  | rest => some (.group [], names, rest)

/-! ### Patterns -/

/-- A part of a pattern that is no group. -/
def readAtom? (blanks : Bool) : List Char → Option (Pattern × List Char)
  | [] => none
  | '[' :: rest => readSet? blanks rest
  | '\x7b' :: _ => none
  | '\\' :: rest => readEscape? blanks rest
  | '.' :: rest => some (point, rest)
  | '^' :: rest => some (edge, rest)
  | '$' :: rest => some (edge, rest)
  | c :: rest => some (char c false, rest)

/-- The parts of a sequence, last one first, with the last one repeated.  Flags cannot be. -/
def repeatLast? : List Pattern → Option (List Pattern)
  | [] => none
  | switch _ :: _ => none
  | p :: ps => some (repeated p :: ps)

/-- The pattern of the parts since the last bar and of the alternatives before it, both with the
last one first. -/
def close (parts alternatives : List Pattern) : Pattern :=
  ofChoice ((ofSequence parts.reverse :: alternatives).reverse)

/-- A pattern up to the end of the text or of the group, in at most so many turns, with all names of
groups. -/
def readParts? :
    Nat → (blanks : Bool) → (names : List String) → (parts alternatives : List Pattern) →
      List Char → Option (Pattern × List String × List Char)
  | 0, _, _, _, _, _ => none
  | fuel + 1, blanks, names, parts, alternatives, cs =>
    match skip blanks cs with
    | [] => some (close parts alternatives, names, [])
    | ')' :: rest => some (close parts alternatives, names, ')' :: rest)
    | '|' :: rest =>
      readParts? fuel blanks names [] (ofSequence parts.reverse :: alternatives) rest
    | '(' :: rest =>
      match readOpening? names (skip blanks rest) with
      | none => none
      | some (.switch flags, names, rest) =>
        readParts? fuel (flags.apply .skipBlanks blanks) names (switch flags :: parts)
          alternatives rest
      | some (.group flags, names, rest) =>
        match readParts? fuel (flags.apply .skipBlanks blanks) names [] [] rest with
        | some (inner, names, ')' :: rest) =>
          readParts? fuel blanks names (group flags inner :: parts) alternatives rest
        | _ => none
    | c :: rest =>
      if c = '?' || c = '*' || c = '+' then
        match repeatLast? parts, rest with
        | none, _ => none
        | some parts, '?' :: rest => readParts? fuel blanks names parts alternatives rest
        | some parts, rest => readParts? fuel blanks names parts alternatives rest
      else
        match readAtom? blanks (c :: rest) with
        | some (part, rest) => readParts? fuel blanks names (part :: parts) alternatives rest
        | none => none

/-- How many levels of a pattern may lie inside each other. -/
def deepest : Nat := 250

/-- The pattern that a text describes. -/
def read? (cs : List Char) : Option Pattern :=
  match readParts? (cs.length + 1) false [] [] [] cs with
  | some (p, _, []) => if p.depth ≤ deepest then some p else none
  | _ => none

end NewtonMethod.Pattern
