/-
NewtonMethod/Pattern/Check.lean

Patterns that can be put to use.

A pattern is put to use by an automaton that is built once and reads text byte
by byte.  It is built without the tables of Unicode and for text that is valid
UTF-8.  So as long as text is a sequence of characters, nothing can be said that
needs a table: upper and lower case, digits, spaces and words.  And while it is
a sequence of bytes, nothing can be said that could fit a part of a character:
any byte, all bytes but some, and bytes beyond ASCII.

A place at the edge of a word needs a table too, but only when text is read, so
it is refused later than all else.
-/
import NewtonMethod.Pattern.Reader

namespace NewtonMethod

namespace Pattern

/-- The modes that decide what a pattern may say, and whether it has asked for the edge of a word in
a sequence of characters. -/
structure Survey where
  /-- Upper and lower case are the same. -/
  ignoreCase : Bool
  /-- Text is a sequence of characters. -/
  characters : Bool
  /-- The edge of a word of characters has been asked for. -/
  seeksWords : Bool
  deriving DecidableEq, Repr

namespace Survey

/-- The modes at the start. -/
def start : Survey := ⟨false, true, false⟩

/-- The modes after a row of flags. -/
def switched (s : Survey) (flags : Flags) : Survey :=
  { s with
    ignoreCase := flags.apply .ignoreCase s.ignoreCase
    characters := flags.apply .characters s.characters }

/-- The modes before a group, again after it. -/
def restored (after before : Survey) : Survey := { before with seeksWords := after.seeksWords }

end Survey

mutual

/-- The modes allow a set. -/
def CharSet.isAllowed (s : Survey) : CharSet → Bool
  | .char c => if s.characters then !s.ignoreCase else c.toNat < 0x80
  | .range _ high => if s.characters then !s.ignoreCase else high.toNat < 0x80
  | .named negated => if s.characters then !s.ignoreCase else !negated
  | .shorthand negated => !s.characters && !negated
  | .property => false
  | .union entries => CharSet.areAllowed s entries
  | .combined left right => left.isAllowed s && right.isAllowed s
  | .bracketed negated inner => (s.characters || !negated) && inner.isAllowed s

/-- The modes allow all of several sets. -/
def CharSet.areAllowed (s : Survey) : List CharSet → Bool
  | [] => true
  | e :: es => e.isAllowed s && CharSet.areAllowed s es

end

mutual

/-- The modes after a pattern, if it is allowed. -/
def survey (s : Survey) : Pattern → Option Survey
  | empty => some s
  | edge => some s
  | wordEdge => some { s with seeksWords := s.seeksWords || s.characters }
  | char c isByte =>
    if s.characters then if s.ignoreCase then none else some s
    else if isByte && 0x80 ≤ c.toNat then none
    else some s
  | point => if s.characters then some s else none
  | shorthand negated => if s.characters || negated then none else some s
  | property => none
  | set entries => if entries.isAllowed s then some s else none
  | switch flags => some (s.switched flags)
  | repeated p => p.survey s
  | group flags p => (p.survey (s.switched flags)).map (·.restored s)
  | sequence ps => surveys s ps
  | choice ps => surveys s ps

/-- The modes after several patterns, if all of them are allowed. -/
def surveys (s : Survey) : List Pattern → Option Survey
  | [] => some s
  | p :: ps =>
    match p.survey s with
    | some s => surveys s ps
    | none => none

end

end Pattern

/-- Why a text cannot be used as a pattern. -/
inductive PatternFault where
  /-- It is no pattern, or the pattern says something that is not allowed. -/
  | unusable
  /-- The pattern asks for the edge of a word of characters. -/
  | seeksWords
  deriving DecidableEq, Repr

namespace PatternFault

/-- What is wrong with a text that cannot be used as a pattern. -/
def message : PatternFault → String
  | unusable => "error building NFA"
  | seeksWords => "unsupported regex feature for DFAs: cannot build DFAs for regexes with Unicode "
      ++ "word boundaries; switch to ASCII word boundaries, or heuristically enable Unicode word "
      ++ "boundaries or use a different regex engine"

end PatternFault

namespace Pattern

/-- What is wrong with a text as a pattern, if anything is. -/
def fault? (cs : List Char) : Option PatternFault :=
  match (read? cs).bind (survey Survey.start) with
  | none => some .unusable
  | some s => if s.seeksWords then some .seeksWords else none

end Pattern

end NewtonMethod
