/-
NewtonMethod/Toml/Reader.lean

TOML documents read from text.

A document is a sequence of lines.  A line names a value, or is a header that
says to which table the following names belong; either may be followed by a
comment.  Arrays may go over several lines, tables between braces may not, and
values may be nested to a fixed depth.
-/
import NewtonMethod.Toml.Scalar

namespace NewtonMethod.Toml

/-! ### Names -/

/-- A character of a name without quotes. -/
def isBareChar (c : Char) : Bool :=
  ('a' ≤ c && c ≤ 'z') || ('A' ≤ c && c ≤ 'Z') || c.isDigit || c = '_' || c = '-'

/-- One part of a name. -/
def readPart? (cs : List Char) : Option (String × List Char) :=
  match cs with
  | '"' :: rest => textOf (quoted? '"' (rest.length + 1) rest)
  | '\'' :: rest => textOf (quoted? '\'' (rest.length + 1) rest)
  | cs =>
    let part := cs.takeWhile isBareChar
    if part.isEmpty then none else some (String.ofList part, cs.drop part.length)

/-- How many parts a name may have, and how many arrays and tables between braces may lie inside
each other. -/
def deepest : Nat := 79

/-- A name of one or more parts, up to the given number, with points between them, and the spaces
after it. -/
def readParts? : Nat → List Char → Option (List String × List Char)
  | 0, _ => none
  | limit + 1, cs => do
    let (part, rest) ← readPart? (skipSpaces cs)
    match skipSpaces rest with
    | '.' :: rest =>
      let (parts, rest) ← readParts? limit rest
      return (part :: parts, rest)
    | rest => return ([part], rest)

/-- A name, and the spaces after it. -/
def readPath? (cs : List Char) : Option (List String × List Char) := readParts? deepest cs

/-! ### Values -/

mutual

/-- A value, with `depth` further levels allowed inside it, in at most the given number of turns. -/
def readValue? : (fuel depth : Nat) → List Char → Option (Toml × List Char)
  | 0, _, _ => none
  | fuel + 1, depth, cs =>
    match cs with
    | '[' :: rest => if depth = 0 then none else readItems? fuel (depth - 1) [] rest
    | '\x7b' :: rest => if depth = 0 then none else readEntries? fuel (depth - 1) Node.root rest
    | cs => readScalar? cs

/-- The rest of an array, the items so far being given with the last one first. -/
def readItems? : (fuel depth : Nat) → List Toml → List Char → Option (Toml × List Char)
  | 0, _, _, _ => none
  | fuel + 1, depth, items, cs =>
    match skipLines cs with
    | ']' :: rest => some (.array items.reverse, rest)
    | cs => do
      let (item, rest) ← readValue? fuel depth cs
      match skipLines rest with
      | ',' :: rest => readItems? fuel depth (item :: items) rest
      | ']' :: rest => return (.array (item :: items).reverse, rest)
      | _ => none

/-- The rest of a table between braces, the entries so far being given. -/
def readEntries? : (fuel depth : Nat) → Node → List Char → Option (Toml × List Char)
  | 0, _, _, _ => none
  | fuel + 1, depth, node, cs => do
    match skipSpaces cs, node with
    | '\x7d' :: rest, .table _ _ [] => return (node.value, rest)
    | cs, _ =>
      let (path, rest) ← readPath? cs
      let rest ← expect? '=' rest
      let (item, rest) ← readValue? fuel depth (skipSpaces rest)
      let node ← node.insert path item
      match skipSpaces rest with
      | ',' :: rest => readEntries? fuel depth node rest
      | '\x7d' :: rest => return (node.value, rest)
      | _ => none

end

/-! ### Lines -/

/-- The rest after the end of a line. -/
def endLine? (cs : List Char) : Option (List Char) :=
  match skipComment (skipSpaces cs) with
  | [] => some []
  | rest => newline? rest

/-- The lines of a document, where `header` is the table that names belong to. -/
def readLines? : Nat → (header : List String) → Node → List Char → Option Node
  | 0, _, _, _ => none
  | fuel + 1, header, node, cs =>
    match skipSpaces cs with
    | [] => some node
    | '[' :: '[' :: rest => do
      let (path, rest) ← readPath? rest
      let rest ← expect? ']' (← expect? ']' rest)
      readLines? fuel path (← node.appendTable path) (← endLine? rest)
    | '[' :: rest => do
      let (path, rest) ← readPath? rest
      let rest ← expect? ']' rest
      readLines? fuel path (← node.openTable path) (← endLine? rest)
    | c :: rest =>
      if c = '#' || c = '\n' || c = '\r' then do
        readLines? fuel header node (← endLine? (c :: rest))
      else do
        let (path, rest) ← readPath? (c :: rest)
        let rest ← expect? '=' rest
        let (item, rest) ← readValue? fuel deepest (skipSpaces rest)
        let node ← Node.descend false (Node.insert path item) header node
        readLines? fuel header node (← endLine? rest)

/-- The table that a document describes.  A byte order mark before it does not count. -/
def read? (text : String) : Option Toml :=
  let cs := match text.toList with
    | '\ufeff' :: cs => cs
    | cs => cs
  (readLines? (3 * cs.length + 3) [] Node.root cs).map Node.value

end NewtonMethod.Toml
