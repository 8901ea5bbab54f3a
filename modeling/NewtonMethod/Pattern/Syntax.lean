/-
NewtonMethod/Pattern/Syntax.lean

Patterns for text.

A pattern is built from characters, from signs that stand for many characters,
and from sets of characters in brackets.  Parts follow each other, are set side
by side as alternatives, are repeated, and are put into groups; flags switch
modes on and off from where they stand to the end of the group around them.

How deep a pattern is nested is told by `depth`: every group, repetition, set,
sequence and choice is one level, and so are inside a set every set in brackets,
every combination of two sets, and several entries side by side.
-/
namespace NewtonMethod

namespace Pattern

/-! ### Flags -/

/-- A mode that a flag switches. -/
inductive Flag where
  /-- Upper and lower case are the same. -/
  | ignoreCase
  /-- Every line has a beginning and an end. -/
  | multiLine
  /-- The point stands for line ends as well. -/
  | pointIsAny
  /-- Repetitions are as short as possible. -/
  | short
  /-- A line may end with two characters. -/
  | twoCharacterEnds
  /-- Text is a sequence of characters, and not of bytes. -/
  | characters
  /-- White space and comments do not count. -/
  | skipBlanks
  deriving DecidableEq, Repr

/-- The flag with a letter. -/
def Flag.ofChar? : Char → Option Flag
  | 'i' => some ignoreCase
  | 'm' => some multiLine
  | 's' => some pointIsAny
  | 'U' => some short
  | 'R' => some twoCharacterEnds
  | 'u' => some characters
  | 'x' => some skipBlanks
  | _ => none

/-- A sign in a row of flags. -/
inductive FlagSign where
  /-- The flags after it are switched off. -/
  | minus
  /-- A flag. -/
  | flag (f : Flag)
  deriving DecidableEq, Repr

/-- A row of flags.  No sign occurs twice in it. -/
abbrev Flags := List FlagSign

/-- What a row of flags says about a mode, if flags are switched on at its start. -/
def Flags.stateFrom (f : Flag) : Bool → Flags → Option Bool
  | _, [] => none
  | _, .minus :: rest => stateFrom f false rest
  | on, .flag g :: rest => if g = f then some on else stateFrom f on rest

/-- The mode after a row of flags. -/
def Flags.apply (fs : Flags) (f : Flag) (before : Bool) : Bool :=
  (Flags.stateFrom f true fs).getD before

/-! ### Sets -/

/-- A set of characters, or a part of one. -/
inductive CharSet where
  /-- A character. -/
  | char (c : Char)
  /-- The characters between two others. -/
  | range (low high : Char)
  /-- A set with a name, or all other characters. -/
  | named (negated : Bool)
  /-- The digits, the spaces or the word characters, or all other characters. -/
  | shorthand (negated : Bool)
  /-- The characters with a property of Unicode. -/
  | property
  /-- No entry, or several ones side by side. -/
  | union (entries : List CharSet)
  /-- What two sets have in common, or what only one of them has. -/
  | combined (left right : CharSet)
  /-- A set in brackets, or all characters outside it. -/
  | bracketed (negated : Bool) (inner : CharSet)

namespace CharSet

/-- The set with the given entries. -/
def ofEntries : List CharSet → CharSet
  | [entry] => entry
  | entries => union entries

mutual

/-- The number of levels that lie inside each other. -/
def depth : CharSet → Nat
  | union [] => 0
  | union (e :: es) => max e.depth (depths es) + 1
  | combined left right => max left.depth right.depth + 1
  | bracketed _ inner => inner.depth + 1
  | _ => 0

/-- The largest number of levels of several sets. -/
def depths : List CharSet → Nat
  | [] => 0
  | e :: es => max e.depth (depths es)

end

end CharSet

end Pattern

/-! ### Patterns -/

/-- A pattern. -/
inductive Pattern where
  /-- The empty text. -/
  | empty
  /-- A character; it may have been given by two hexadecimal digits. -/
  | char (c : Char) (isByte : Bool)
  /-- Any character. -/
  | point
  /-- The beginning or the end of a line or of the text. -/
  | edge
  /-- A place with a word on one side only, or on both or neither. -/
  | wordEdge
  /-- The digits, the spaces or the word characters, or all other characters. -/
  | shorthand (negated : Bool)
  /-- The characters with a property of Unicode. -/
  | property
  /-- A set of characters. -/
  | set (s : Pattern.CharSet)
  /-- Flags for the rest of the group. -/
  | switch (flags : Pattern.Flags)
  /-- A pattern that may occur several times, or not at all. -/
  | repeated (p : Pattern)
  /-- A pattern with flags of its own. -/
  | group (flags : Pattern.Flags) (p : Pattern)
  /-- Patterns that follow each other. -/
  | sequence (ps : List Pattern)
  /-- Patterns of which one is to be found. -/
  | choice (ps : List Pattern)

namespace Pattern

/-- The given patterns, one after the other. -/
def ofSequence : List Pattern → Pattern
  | [] => empty
  | [p] => p
  | ps => sequence ps

/-- One of the given patterns. -/
def ofChoice : List Pattern → Pattern
  | [p] => p
  | ps => choice ps

mutual

/-- The number of levels that lie inside each other. -/
def depth : Pattern → Nat
  | set s => s.depth
  | repeated p => p.depth + 1
  | group _ p => p.depth + 1
  | sequence ps => depths ps + 1
  | choice ps => depths ps + 1
  | _ => 0

/-- The largest number of levels of several patterns. -/
def depths : List Pattern → Nat
  | [] => 0
  | p :: ps => max p.depth (depths ps)

end

end Pattern

end NewtonMethod
