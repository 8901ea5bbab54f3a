/-
NewtonMethod/Toml/Document.lean

TOML documents, and the tree in which one is put together.

The lines of a document may add to the same table from several places, and
there are rules about which additions are allowed.  While a document is read,
each table of the tree therefore remembers how it came about:

* a table that exists only because a longer name passed through it may still be
  given a header of its own, once;
* a table made by dotted names may only grow by dotted names from the place
  where it was made;
* inside a value nothing can be added.
-/
import NewtonMethod.Decimal.Reader
import NewtonMethod.Document

namespace NewtonMethod

/-- A value. -/
inductive Toml where
  | string (s : String)
  | integer (n : Int)
  | real (x : Float)
  | boolean (b : Bool)
  | moment
  | array (items : List Toml)
  | table (entries : List (String × Toml))

namespace Toml

/-- A node of the tree under construction. -/
inductive Node where
  /-- A value; it is complete. -/
  | leaf (value : Toml)
  /-- A table.  It is implicit as long as no header has named it, and dotted if a dotted name has
  made it. -/
  | table (isImplicit isDotted : Bool) (entries : List (String × Node))
  /-- Tables under one repeated header, oldest first. -/
  | tables (items : List Node)

namespace Node

/-- The table without entries that a document starts as. -/
def root : Node := table false false []

/-- The entry with a name. -/
def find? (name : String) : List (String × Node) → Option Node
  | [] => none
  | (k, node) :: rest => if k = name then some node else find? name rest

/-- The entries with one of them replaced or added. -/
def put (name : String) (node : Node) : List (String × Node) → List (String × Node)
  | [] => [(name, node)]
  | (k, old) :: rest => if k = name then (k, node) :: rest else (k, old) :: put name node rest

/-- Changes the table at the end of a path.  Tables that are missing on the way are made.  A
repeated table stands for its last item.  A dotted path does not enter a table that a header has
named. -/
def descend (dotted : Bool) (change : Node → Option Node) : List String → Node → Option Node
  | [], node => change node
  | name :: path, table isImplicit isDotted entries => do
    let child ← match find? name entries with
      | none => descend dotted change path (table true dotted [])
      | some (leaf _) => none
      | some (table i d es) =>
        if dotted && !i then none else descend dotted change path (table i d es)
      | some (tables items) => do
        let last ← items.getLast?
        let last ← descend dotted change path last
        some (tables (items.dropLast ++ [last]))
    return table isImplicit isDotted (put name child entries)
  | _ :: _, _ => none

/-- Adds a value under a name of one or more parts. -/
def insert (path : List String) (value : Toml) (node : Node) : Option Node := do
  let name ← path.getLast?
  let way := path.dropLast
  descend true (fun
    | table isImplicit isDotted entries =>
      if isDotted == way.isEmpty then none
      else
        match find? name entries with
        | none => some (table isImplicit isDotted (put name (leaf value) entries))
        | some _ => none
    | _ => none) way node

/-- Adds the table that a header names. -/
def openTable (path : List String) (node : Node) : Option Node := do
  let name ← path.getLast?
  descend false (fun
    | table isImplicit isDotted entries =>
      match find? name entries with
      | none => some (table isImplicit isDotted (put name root entries))
      | some (table true false es) =>
        some (table isImplicit isDotted (put name (table false false es) entries))
      | some _ => none
    | _ => none) path.dropLast node

/-- Adds one more table under a repeated header. -/
def appendTable (path : List String) (node : Node) : Option Node := do
  let name ← path.getLast?
  descend false (fun
    | table isImplicit isDotted entries =>
      match find? name entries with
      | none => some (table isImplicit isDotted (put name (tables [root]) entries))
      | some (tables items) =>
        some (table isImplicit isDotted (put name (tables (items ++ [root])) entries))
      | some _ => none
    | _ => none) path.dropLast node

mutual

/-- The finished value. -/
def value : Node → Toml
  | leaf v => v
  | table _ _ entries => .table (entryValues entries)
  | tables items => .array (itemValues items)

/-- The finished entries. -/
def entryValues : List (String × Node) → List (String × Toml)
  | [] => []
  | (k, node) :: rest => (k, node.value) :: entryValues rest

/-- The finished items. -/
def itemValues : List Node → List Toml
  | [] => []
  | node :: rest => node.value :: itemValues rest

end

end Node

/-! ### Reading a document -/

/-- A real number; a whole number is one as well. -/
def toReal? : Toml → Option Float
  | real x => some x
  | integer n => some (Decimal.toFloat (n < 0) ⟨n.natAbs, 0⟩)
  | _ => none

/-- A count. -/
def toCount? : Toml → Option Nat
  | integer n => if 0 ≤ n then some n.toNat else none
  | _ => none

/-- A text. -/
def toText? : Toml → Option String
  | string s => some s
  | _ => none

/-- A name from a list of names, as a text or as a table whose only entry has that name and is
empty. -/
def toName? : Toml → Option String
  | string s => some s
  | table [(name, table [])] => some name
  | table [(name, array [])] => some name
  | _ => none

/-- The values of the named fields, in the order of the names, where a field may be absent.  A table
may have further entries; an array gives the first fields in order.  A date or a time stands for a
table with none of the fields. -/
def fields? (names : List String) : Toml → Option (List (Option Toml))
  | table entries => some (names.map fun name => (entries.find? fun e => e.1 = name).map (·.2))
  | array items =>
    some ((items.map some ++ List.replicate names.length none).take names.length)
  | moment => some (names.map fun _ => none)
  | _ => none

instance : Document Toml where
  fields? := fields?
  real? := toReal?
  count? := toCount?
  text? := toText?
  name? := toName?
  isNull _ := false

end Toml

end NewtonMethod
