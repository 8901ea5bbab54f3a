/-
NewtonMethod/CommandLine/Options.lean

Options on a command line.

An option is named by two hyphens and a word, some also by one hyphen and a
letter.  A switch stands alone; any other option takes one value, which follows
an equals sign or is the next argument:

    --name=value    --name value    -n value    -nvalue    -n=value

Letters of switches can be written together.  An argument that begins with a
hyphen is not taken for a value, unless the option says so.  Each option may be
given once, unless it collects its values.
-/
namespace NewtonMethod.CommandLine

/-- Why the arguments are not carried out. -/
inductive Exit where
  /-- They make no sense. -/
  | usage
  /-- They ask for the version. -/
  | version
  /-- They ask for help. -/
  | help
  deriving DecidableEq, Repr

/-- Which arguments that begin with a hyphen an option takes for its value. -/
inductive Hyphens where
  /-- None. -/
  | none
  /-- Negative numbers. -/
  | numbers
  /-- Any. -/
  | any
  deriving DecidableEq, Repr

/-- What comes with an option. -/
inductive Kind where
  /-- Nothing. -/
  | switch
  /-- A value that passes a test. -/
  | value (hyphens : Hyphens) (isValid : String → Bool)
  /-- Nothing, and nothing else is looked at. -/
  | exit (e : Exit)

/-- An option. -/
structure Opt where
  /-- The word that names it. -/
  name : String
  /-- The letter that names it. -/
  letter : Option Char := none
  /-- What comes with it. -/
  kind : Kind
  /-- It may be given several times. -/
  collects : Bool := false

/-- The options that were given, in order, with their values. -/
abbrev Given := List (String × String)

namespace Given

/-- All values of an option. -/
def values (g : Given) (name : String) : List String := (g.filter (·.1 = name)).map (·.2)

/-- The last value of an option. -/
def value? (g : Given) (name : String) : Option String := (g.values name).getLast?

/-- The option was given. -/
def has (g : Given) (name : String) : Bool := g.any (·.1 = name)

end Given

namespace Opt

/-- Digits, with at most one point and one exponent that has no sign. -/
def isPlainNumber (cs : List Char) : Bool :=
  let digits (cs : List Char) := cs.dropWhile Char.isDigit
  let power (cs : List Char) := match cs with
    | [] => true
    | c :: rest => (c = 'e' || c = 'E') && !rest.isEmpty && (digits rest).isEmpty
  match cs with
  | [] => false
  | c :: _ =>
    c.isDigit && match digits cs with
      | '.' :: rest => power (digits rest)
      | rest => power rest

/-- The next argument is taken for the value of the option. -/
def takes (hyphens : Hyphens) (argument : String) : Bool :=
  match argument.toList with
  | '-' :: c :: rest =>
    match hyphens with
    | .any => true
    | .numbers => isPlainNumber (c :: rest)
    | .none => false
  | _ => true

/-- Records an option. -/
def give (o : Opt) (value : String) (g : Given) : Except Exit Given :=
  let added := g ++ [(o.name, value)]
  let once := o.collects || !g.has o.name
  match o.kind with
  | .exit e => .error e
  | .switch => if once then .ok added else .error .usage
  | .value _ isValid => if once && isValid value then .ok added else .error .usage

end Opt

/-- Letters after one hyphen.  The result tells which option still waits for its value. -/
def readLetters (opts : List Opt) : Given → List Char → Except Exit (Given × Option Opt)
  | g, [] => .ok (g, none)
  | g, c :: rest =>
    match opts.find? fun o => o.letter = some c with
    | none => .error .usage
    | some o =>
      match o.kind, rest with
      | .value .., [] => .ok (g, some o)
      | .value .., '=' :: value => do return (← o.give (String.ofList value) g, none)
      | .value .., value => do return (← o.give (String.ofList value) g, none)
      | _, rest => do readLetters opts (← o.give "" g) rest

/-- A word after two hyphens, perhaps with a value. -/
def readWord (opts : List Opt) (g : Given) (word : List Char) :
    Except Exit (Given × Option Opt) :=
  let name := word.takeWhile (· ≠ '=')
  match opts.find? fun o => o.name = String.ofList name with
  | none => .error .usage
  | some o =>
    match o.kind, word.drop name.length with
    | .value .., [] => .ok (g, some o)
    | .value .., _ :: value => do return (← o.give (String.ofList value) g, none)
    | _, [] => do return (← o.give "" g, none)
    | _, _ => .error .usage

/-- Reads options up to the first argument that is none; it and all after it are returned.
`waiting` is an option whose value comes next. -/
def readOptions (opts : List Opt) :
    (waiting : Option Opt) → Given → List String → Except Exit (Given × List String)
  | some _, _, [] => .error .usage
  | some o, g, argument :: rest =>
    match o.kind with
    | .value hyphens _ =>
      if Opt.takes hyphens argument then do readOptions opts none (← o.give argument g) rest
      else .error .usage
    | _ => .error .usage
  | none, g, [] => .ok (g, [])
  | none, g, argument :: rest =>
    match argument.toList with
    | ['-', '-'] => if rest.isEmpty then .ok (g, []) else .error .usage
    | '-' :: '-' :: word => do
      let (g, waiting) ← readWord opts g word
      readOptions opts waiting g rest
    | '-' :: c :: letters => do
      let (g, waiting) ← readLetters opts g (c :: letters)
      readOptions opts waiting g rest
    | _ => .ok (g, argument :: rest)

end NewtonMethod.CommandLine
