/-
NewtonMethod/Proofs/GivenOptions.lean

Options that are given have values that pass their tests.

An option can be recorded after a letter, in a word with two hyphens, and when the
argument comes for which an option has been waiting.  All of these go through
`Opt.give`, which tests the value, and all look the option up in the list of those
that are known.  So every record is one of a known option with a value that has
passed (`Given.Fits`), and this is kept from one argument to the next.

The options before the command and those after it are known from two lists.  In both,
the three options for settings are tested for numbers, and no option of a command has
one of their names.  So whatever arguments are accepted, these three stand for numbers
wherever they are given (`exists_gives_of_readArguments`).
-/
import NewtonMethod.CommandLine.Arguments
import NewtonMethod.Proofs.MatrixText

namespace NewtonMethod.CommandLine

/-! ### Recording -/

/-- The text passes the test that comes with the option, if it comes with one. -/
def Opt.Accepts (o : Opt) (text : String) : Prop :=
  ∀ hyphens isValid, o.kind = .value hyphens isValid → isValid text = true

/-- Each record is one of a known option, and its text passes the test of that option. -/
def Given.Fits (g : Given) (opts : List Opt) : Prop :=
  ∀ p ∈ g, ∃ o ∈ opts, o.name = p.1 ∧ o.Accepts p.2

section Options

variable {opts opts' : List Opt} {o : Opt} {g g' : Given}

@[simp] theorem Given.fits_nil : Given.Fits [] opts := by
  intro p hp
  cases hp

theorem Given.Fits.append (h : g.Fits opts) (h' : g'.Fits opts') :
    Given.Fits (g ++ g') (opts ++ opts') := by
  intro p hp
  rcases List.mem_append.mp hp with hp | hp
  · obtain ⟨o, ho, hfits⟩ := h p hp
    exact ⟨o, List.mem_append_left opts' ho, hfits⟩
  · obtain ⟨o, ho, hfits⟩ := h' p hp
    exact ⟨o, List.mem_append_right opts ho, hfits⟩

/-- What is recorded has passed the test of its option, and it is recorded last. -/
theorem Opt.give_eq_ok {text : String} (h : o.give text g = .ok g') :
    o.Accepts text ∧ g' = g ++ [(o.name, text)] := by
  rcases hkind : o.kind with - | ⟨hyphens, isValid⟩ | e
  · simp only [give, hkind] at h
    split at h
    · refine ⟨?_, (Except.ok.inj h).symm⟩
      intro hyphens isValid hvalue
      rw [hkind] at hvalue
      cases hvalue
    · cases h
  · simp only [give, hkind] at h
    split at h
    · next hvalid =>
      refine ⟨?_, (Except.ok.inj h).symm⟩
      intro hyphens' isValid' hvalue
      obtain ⟨-, rfl⟩ := Kind.value.inj (hkind.symm.trans hvalue)
      exact (Bool.and_eq_true_iff.mp hvalid).2
    · cases h
  · simp only [give, hkind] at h
    cases h

/-- Recording a known option keeps what has been recorded as it should be. -/
theorem Given.Fits.give {text : String} (hg : g.Fits opts) (ho : o ∈ opts)
    (h : o.give text g = .ok g') : g'.Fits opts := by
  obtain ⟨haccepts, rfl⟩ := Opt.give_eq_ok h
  intro p hp
  rcases List.mem_append.mp hp with hp | hp
  · exact hg p hp
  · obtain rfl := List.mem_singleton.mp hp
    exact ⟨o, ho, rfl, haccepts⟩

/-! ### Reading -/

/-- The records are as they should be, and an option that waits for its value is a known one. -/
structure Reads (opts : List Opt) (r : Given × Option Opt) : Prop where
  fits : r.1.Fits opts
  known : ∀ o ∈ r.2, o ∈ opts

theorem reads_of_give {text : String} {r : Given × Option Opt} (hg : g.Fits opts) (ho : o ∈ opts)
    (h : (do return (← o.give text g, none)) = .ok r) : Reads opts r := by
  obtain ⟨g', hg', h⟩ := bind_eq_ok_iff.mp h
  obtain rfl := Except.ok.inj h
  exact ⟨hg.give ho hg', by simp⟩

/-- A group of letters records known options only. -/
theorem reads_of_readLetters {letters : List Char} {r : Given × Option Opt} (hg : g.Fits opts)
    (h : readLetters opts g letters = .ok r) : Reads opts r := by
  induction letters generalizing g with
  | nil =>
    obtain rfl := Except.ok.inj h
    exact ⟨hg, by simp⟩
  | cons c rest ih =>
    rw [readLetters] at h
    rcases hfind : opts.find? (·.letter = some c) with - | o
    · rw [hfind] at h
      cases h
    · rw [hfind] at h
      have ho : o ∈ opts := List.mem_of_find?_eq_some hfind
      dsimp only at h
      split at h
      · -- the value is in the next argument
        obtain rfl := Except.ok.inj h
        exact ⟨hg, by simpa using ho⟩
      · exact reads_of_give hg ho h
      · exact reads_of_give hg ho h
      · -- other letters follow
        obtain ⟨g', hg', h⟩ := bind_eq_ok_iff.mp h
        exact ih (hg.give ho hg') h

theorem reads_of_readWord {word : List Char} {r : Given × Option Opt} (hg : g.Fits opts)
    (h : readWord opts g word = .ok r) : Reads opts r := by
  rw [readWord] at h
  rcases hfind : opts.find? (·.name = String.ofList (word.takeWhile (· ≠ '='))) with - | o
  · rw [hfind] at h
    cases h
  · rw [hfind] at h
    have ho : o ∈ opts := List.mem_of_find?_eq_some hfind
    dsimp only at h
    split at h
    · obtain rfl := Except.ok.inj h
      exact ⟨hg, by simpa using ho⟩
    · exact reads_of_give hg ho h
    · exact reads_of_give hg ho h
    · cases h

/-- Whatever arguments are read, the records stay as they should be. -/
theorem fits_of_readOptions {arguments rest : List String} {waiting : Option Opt}
    (hr : Reads opts (g, waiting)) (h : readOptions opts waiting g arguments = .ok (g', rest)) :
    g'.Fits opts := by
  -- the induction is on the arguments; from one to the next an option may wait for its value
  induction arguments generalizing waiting g with
  | nil =>
    cases waiting with
    | none =>
      obtain ⟨rfl, -⟩ := Prod.mk.inj (Except.ok.inj h)
      exact hr.fits
    | some o => cases h
  | cons argument arguments ih =>
    cases waiting with
    | none =>
      rw [readOptions] at h
      split at h
      · split at h
        · obtain ⟨rfl, -⟩ := Prod.mk.inj (Except.ok.inj h)
          exact hr.fits
        · cases h
      · obtain ⟨r, hword, h⟩ := bind_eq_ok_iff.mp h
        exact ih (reads_of_readWord hr.fits hword) h
      · obtain ⟨r, hletters, h⟩ := bind_eq_ok_iff.mp h
        exact ih (reads_of_readLetters hr.fits hletters) h
      · obtain ⟨rfl, -⟩ := Prod.mk.inj (Except.ok.inj h)
        exact hr.fits
    | some o =>
      rw [readOptions] at h
      split at h
      · split at h
        · obtain ⟨g₁, hgive, h⟩ := bind_eq_ok_iff.mp h
          exact ih ⟨hr.fits.give (hr.known o rfl) hgive, by simp⟩ h
        · cases h
      · cases h

/-! ### Values -/

/-- Each known option of that name comes with that test. -/
def IsTested (opts : List Opt) (name : String) (isValid : String → Bool) : Prop :=
  ∀ o ∈ opts, o.name = name → ∃ hyphens, o.kind = .value hyphens isValid

/-- The value that counts is the last one recorded, and it has passed the test of its name. -/
theorem Given.Fits.isValid_of_value? {name text : String} {isValid : String → Bool}
    (hg : g.Fits opts) (htested : IsTested opts name isValid) (h : g.value? name = some text) :
    isValid text = true := by
  obtain ⟨p, hp, rfl⟩ := List.mem_map.mp (List.mem_of_getLast? h)
  obtain ⟨hp, hname⟩ := List.mem_filter.mp hp
  obtain ⟨o, ho, honame, haccepts⟩ := hg p hp
  obtain ⟨hyphens, hkind⟩ := htested o ho (honame.trans (of_decide_eq_true hname))
  exact haccepts hyphens isValid hkind

end Options

/-! ### The options for settings -/

/-- The options that the arguments give are those before the command and those after it. -/
def Gives (arguments : List String) (given : Given) : Prop :=
  ∃ leading name opts rest following,
    readOptions leadingOpts none [] arguments = .ok (leading, name :: rest)
      ∧ commandOpts? name = some opts
      ∧ readOptions (opts ++ globalOpts) none [] rest = .ok (following, [])
      ∧ given = leading ++ following

/-- Arguments that are accepted give options before the command and after it, and these make up the
flags. -/
theorem exists_gives_of_readArguments {arguments : List String} {i : Invocation}
    (h : readArguments arguments = .ok i) :
    ∃ given, Gives arguments given ∧ i.flags = flags given := by
  obtain ⟨⟨leading, rest⟩, hleading, h⟩ := bind_eq_ok_iff.mp h
  dsimp only at h
  split at h
  · cases h
  · cases h
  · next name rest _ =>
    rcases hopts : commandOpts? name with - | opts
    · rw [hopts] at h
      cases h
    · rw [hopts] at h
      obtain ⟨⟨following, left⟩, hfollowing, h⟩ := bind_eq_ok_iff.mp h
      dsimp only at h
      split at h
      · obtain rfl := Except.ok.inj h
        refine ⟨leading ++ following, ?_, rfl⟩
        exact ⟨leading, name, opts, rest, following, hleading, hopts, hfollowing, rfl⟩
      · cases h

/-- All options that are known before and after a command with the options `opts`. -/
def knownOpts (opts : List Opt) : List Opt := leadingOpts ++ (opts ++ globalOpts)

/-- Whatever the command is, the names of the three settings stand for tests of numbers. -/
theorem isTested_knownOpts {name : String} {opts : List Opt} (h : commandOpts? name = some opts) :
    IsTested (knownOpts opts) "tolerance" (fun s => (real? s).isSome)
      ∧ IsTested (knownOpts opts) "max-iterations" (fun s => (count? s).isSome)
      ∧ IsTested (knownOpts opts) "max-radius" (fun s => (real? s).isSome) := by
  rw [commandOpts?.eq_def] at h
  split at h
  -- no option of a command has the name of a setting
  · obtain rfl := Option.some.inj h
    simp [IsTested, knownOpts, leadingOpts, globalOpts, helpOpt, realOpt, analyticOpt]
  · obtain rfl := Option.some.inj h
    simp [IsTested, knownOpts, leadingOpts, globalOpts, helpOpt, realOpt, analyticOpt]
  · obtain rfl := Option.some.inj h
    simp [IsTested, knownOpts, leadingOpts, globalOpts, helpOpt, realOpt, textOpt]
  · obtain rfl := Option.some.inj h
    simp [IsTested, knownOpts, leadingOpts, globalOpts, helpOpt, realOpt]
  · cases h

/-- The options for settings are given with numbers, if they are given. -/
structure Given.HasNumbers (given : Given) : Prop where
  tolerance : ∀ text, given.value? "tolerance" = some text → ∃ x, real? text = some x
  maxIterations : ∀ text, given.value? "max-iterations" = some text → ∃ k, count? text = some k
  maxRadius : ∀ text, given.value? "max-radius" = some text → ∃ x, real? text = some x

/-- A command line that is accepted has numbers for the three settings, where it gives them. -/
theorem hasNumbers_of_gives {arguments : List String} {given : Given}
    (h : Gives arguments given) : given.HasNumbers := by
  obtain ⟨leading, name, opts, rest, following, hleading, hopts, hfollowing, rfl⟩ := h
  have hfits : Given.Fits (leading ++ following) (knownOpts opts) :=
    (fits_of_readOptions ⟨Given.fits_nil, by simp⟩ hleading).append
      (fits_of_readOptions ⟨Given.fits_nil, by simp⟩ hfollowing)
  obtain ⟨htolerance, hiterations, hradius⟩ := isTested_knownOpts hopts
  constructor
  · intro text h
    exact Option.isSome_iff_exists.mp (hfits.isValid_of_value? htolerance h)
  · intro text h
    exact Option.isSome_iff_exists.mp (hfits.isValid_of_value? hiterations h)
  · intro text h
    exact Option.isSome_iff_exists.mp (hfits.isValid_of_value? hradius h)

end NewtonMethod.CommandLine
