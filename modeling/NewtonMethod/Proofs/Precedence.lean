/-
NewtonMethod/Proofs/Precedence.lean

Which place decides a setting.

Four places are asked, and all but the last may leave a setting open:

    flags    >    variables    >    file    >    standard settings

The flags speak of three settings, the variables of five and a file of all seven.
A setting comes from the first place that gives it, whatever is said of the others
(`Settings.ComesFrom`).

* **A file** gives a setting under its own name, in the table for the solver or
  beside it (`Layer.Describes`).
* **The environment** is read before the flags are looked at.  Four of its
  variables have to be numbers, and the first that is not ends the loading, with
  its text as it is (`FirstRefused`).  So reading them one by one amounts to
  looking for that variable, and taking all values if there is none
  (`Layer.ofEnvironment_eq`).
* **The arguments** are tested when they are read, so an option for a setting that
  is given always stands for a number (`CommandLine.hasNumbers_of_gives`).

Together they say what loading comes to (`Settings.load_precedence`).
-/
import NewtonMethod.Proofs.GivenOptions
import NewtonMethod.Proofs.Sweep

namespace NewtonMethod

/-! ### What a file says -/

namespace Toml

/-- What a document has for one of a list of names: a table the entry with that name, an array the
item in that place. -/
def field? (names : List String) (d : Toml) (name : String) : Option Toml :=
  match d with
  | table entries => (entries.find? fun e => e.1 = name).map (·.2)
  | array items => items[names.idxOf name]?
  | _ => none

/-- What is read of a document is what it has for each name, if no name comes twice. -/
theorem fields?_eq_map {names : List String} (hnames : names.Nodup) {d : Toml}
    {values : List (Option Toml)} (h : d.fields? names = some values) :
    values = names.map (d.field? names) := by
  cases d with
  | table entries => exact (Option.some.inj h).symm
  | array items =>
    obtain rfl := Option.some.inj h
    apply List.ext_getElem
    · simp
    · intro i hi hi'
      have hlt : i < names.length := by simpa using hi'
      have hplace : names.idxOf names[i] = i := hnames.idxOf_getElem i hlt
      rw [List.getElem_take, List.getElem_map, field?, hplace]
      -- an array that is too short leaves the last names open
      rcases Nat.lt_or_ge i items.length with hitem | hitem
      · simp [hitem]
      · simp [hitem]
  | moment => exact (Option.some.inj h).symm
  | string | integer | real | boolean => cases h

end Toml

/-- What need not be there is read if it is not there, or if it stands for a value. -/
theorem mapM_eq_some_iff {α β : Type} {read : α → Option β} {o : Option α} {v : Option β} :
    o.mapM read = some v ↔ Option.Rel (read · = some ·) o v := by
  rcases o with - | a
  · constructor
    · intro h
      obtain rfl : none = v := Option.some.inj h
      exact .none
    · rintro ⟨⟩
      rfl
  · constructor
    · intro h
      obtain ⟨b, hb, rfl⟩ := Option.map_eq_some_iff.mp h
      exact .some hb
    · rintro ⟨hb⟩
      exact congrArg (Option.map some) hb

open Toml in
/-- The settings of a solve that a document gives: each one under its own name, if there is
something under that name, and then what is there stands for it. -/
structure ConfigLayer.Describes (l : ConfigLayer) (d : Toml) : Prop where
  tolerance : Option.Rel (toReal? · = some ·) (d.field? names "tolerance") l.tolerance
  maxIterations : Option.Rel (toCount? · = some ·) (d.field? names "max_iterations")
    l.maxIterations
  maxRadius : Option.Rel (fun part radius => (toReal? part).map some = some radius)
    (d.field? names "max_radius") l.maxRadius
  stepScale : Option.Rel (toReal? · = some ·) (d.field? names "step_scale") l.stepScale
  scheme : Option.Rel (fun part scheme => (toName? part).bind Scheme.ofName? = some scheme)
    (d.field? names "scheme") l.scheme
  singularityTolerance : Option.Rel (toReal? · = some ·) (d.field? names "singularity_tolerance")
    l.singularityTolerance

/-- The settings that are read of a table are those it gives. -/
theorem ConfigLayer.describes_of_document {d : Toml} {l : ConfigLayer}
    (h : ofDocument? d = some l) : l.Describes d := by
  obtain ⟨values, hvalues, h⟩ := Option.bind_eq_some_iff.mp h
  obtain rfl := Toml.fields?_eq_map (by decide) hvalues
  -- each entry is read in turn, and one that cannot be read ends the reading
  obtain ⟨tolerance, htolerance, h⟩ := Option.bind_eq_some_iff.mp h
  obtain ⟨iterations, hiterations, h⟩ := Option.bind_eq_some_iff.mp h
  obtain ⟨radius, hradius, h⟩ := Option.bind_eq_some_iff.mp h
  obtain ⟨step, hstep, h⟩ := Option.bind_eq_some_iff.mp h
  obtain ⟨scheme, hscheme, h⟩ := Option.bind_eq_some_iff.mp h
  obtain ⟨singularity, hsingularity, h⟩ := Option.bind_eq_some_iff.mp h
  obtain rfl := Option.some.inj h
  exact ⟨mapM_eq_some_iff.mp htolerance, mapM_eq_some_iff.mp hiterations,
    mapM_eq_some_iff.mp hradius, mapM_eq_some_iff.mp hstep, mapM_eq_some_iff.mp hscheme,
    mapM_eq_some_iff.mp hsingularity⟩

/-- The names of the two parts of a file. -/
def Layer.names : List String := ["solver", "log_level"]

/-- The settings that a document gives.  Without a table for the solver it gives none of those. -/
structure Layer.Describes (l : Layer) (d : Toml) : Prop where
  solver : l.solver.Describes ((d.field? names "solver").getD (.table []))
  logLevel : Option.Rel (Toml.toText? · = some ·) (d.field? names "log_level") l.logLevel

theorem Layer.describes_of_document {d : Toml} {l : Layer} (h : ofDocument? d = some l) :
    l.Describes d := by
  obtain ⟨values, hvalues, h⟩ := Option.bind_eq_some_iff.mp h
  obtain rfl := Toml.fields?_eq_map (by decide) hvalues
  obtain ⟨solver, hsolver, h⟩ := Option.bind_eq_some_iff.mp h
  obtain ⟨level, hlevel, h⟩ := Option.bind_eq_some_iff.mp h
  obtain rfl := Option.some.inj h
  refine ⟨?_, mapM_eq_some_iff.mp hlevel⟩
  have hpart : Option.Rel (ConfigLayer.ofDocument? · = some ·) (d.field? names "solver") solver :=
    mapM_eq_some_iff.mp hsolver
  generalize d.field? names "solver" = part at hpart ⊢
  -- without a table for the solver an empty one is described
  cases hpart with
  | none => exact ⟨.none, .none, .none, .none, .none, .none⟩
  | some hread => exact ConfigLayer.describes_of_document hread

/-- What a file says.  One that does not exist says nothing. -/
inductive FileState.Says : FileState → Layer → Prop
  | absent : Says .absent {}
  | text {content : String} {d : Toml} {l : Layer} :
    Toml.read? content = some d → l.Describes d → Says (.text content) l

theorem FileState.says_of_layer {file : FileState} {l : Layer} (h : file.layer = .ok l) :
    file.Says l := by
  cases file with
  | absent =>
    obtain rfl := Except.ok.inj h
    exact .absent
  | unreadable => cases h
  | text content =>
    rw [layer, Layer.ofFile] at h
    rcases hread : (Toml.read? content).bind Layer.ofDocument? with - | l'
    · rw [hread] at h
      cases h
    · rw [hread] at h
      obtain rfl := Except.ok.inj h
      obtain ⟨d, hd, hl⟩ := Option.bind_eq_some_iff.mp hread
      exact .text hd (Layer.describes_of_document hl)

/-! ### What the environment says -/

/-- A variable of the environment that has to be a number of some kind. -/
structure NumberVariable where
  /-- Its name. -/
  key : String
  /-- Which texts are such a number. -/
  isNumber : List Char → Bool

namespace NumberVariable

/-- The variable is set, and its text is no such number, even without the white space around it. -/
def Refuses (v : NumberVariable) (lookup : String → Option String) (value : String) : Prop :=
  lookup v.key = some value ∧ v.isNumber (Text.trim value.toList) = false

/-- What loading reports of the variable. -/
def fault? (lookup : String → Option String) (v : NumberVariable) : Option SettingsFault :=
  (lookup v.key).bind fun value =>
    if v.isNumber (Text.trim value.toList) then none else some (.override v.key value)

variable {lookup : String → Option String} {v : NumberVariable}

theorem fault?_eq_some_iff {fault : SettingsFault} :
    v.fault? lookup = some fault
      ↔ ∃ value, v.Refuses lookup value ∧ .override v.key value = fault := by
  simp [fault?, Refuses, Option.bind_eq_some_iff, and_assoc]

theorem fault?_eq_none_iff : v.fault? lookup = none ↔ ∀ value, ¬v.Refuses lookup value := by
  simp [fault?, Refuses]

end NumberVariable

/-- The variables that have to be numbers, in the order in which they are read. -/
def numberVariables : List NumberVariable :=
  [⟨"NEWTON_TOLERANCE", fun text => (readFloat? text).isSome⟩,
   ⟨"NEWTON_MAX_ITERATIONS", fun text => (readCount? text).isSome⟩,
   ⟨"NEWTON_MAX_RADIUS", fun text => (readFloat? text).isSome⟩,
   ⟨"NEWTON_STEP_SCALE", fun text => (readFloat? text).isSome⟩]

/-- Of the variables that have to be numbers, `key` is the first that is set to something else, and
`value` is its text. -/
def FirstRefused (lookup : String → Option String) (key value : String) : Prop :=
  ∃ before v after, numberVariables = before ++ v :: after
    ∧ (∀ u ∈ before, ∀ text, ¬u.Refuses lookup text) ∧ v.Refuses lookup value ∧ v.key = key

/-- What loading reports of the environment. -/
def firstFault? (lookup : String → Option String) : Option SettingsFault :=
  numberVariables.findSome? (·.fault? lookup)

/-- What a variable stands for, if it is set. -/
def variableValue {α : Type} (lookup : String → Option String) (read : List Char → Option α)
    (key : String) : Option α :=
  (lookup key).bind fun value => read (Text.trim value.toList)

/-- What an option on the command line stands for, if it is given.  If it is given several times,
the last one counts. -/
def flagValue {α : Type} (given : CommandLine.Given) (read : String → Option α) (name : String) :
    Option α :=
  (given.value? name).bind read

section Environment

variable {lookup : String → Option String}

/-- The first fault is that of the first variable that is refused. -/
theorem firstFault?_eq_some_iff {fault : SettingsFault} :
    firstFault? lookup = some fault
      ↔ ∃ key value, FirstRefused lookup key value ∧ fault = .override key value := by
  simp only [firstFault?, List.findSome?_eq_some_iff, NumberVariable.fault?_eq_some_iff,
    NumberVariable.fault?_eq_none_iff]
  constructor
  · rintro ⟨before, v, after, hsplit, ⟨value, hvalue, rfl⟩, hbefore⟩
    exact ⟨v.key, value, ⟨before, v, after, hsplit, hbefore, hvalue, rfl⟩, rfl⟩
  · rintro ⟨key, value, ⟨before, v, after, hsplit, hbefore, hvalue, rfl⟩, rfl⟩
    exact ⟨before, v, after, hsplit, ⟨value, hvalue, rfl⟩, hbefore⟩

theorem firstFault?_eq_none_iff :
    firstFault? lookup = none ↔ ∀ v ∈ numberVariables, ∀ value, ¬v.Refuses lookup value := by
  simp only [firstFault?, List.findSome?_eq_none_iff, NumberVariable.fault?_eq_none_iff]

theorem readVariable_eq {α : Type} (read : List Char → Option α) (key : String) :
    Layer.readVariable lookup read key
      = (NumberVariable.fault? lookup ⟨key, fun text => (read text).isSome⟩).elim
          (.ok (variableValue lookup read key)) .error := by
  rw [Layer.readVariable, NumberVariable.fault?, variableValue]
  rcases lookup key with - | value
  · rfl
  · rcases hread : read (Text.trim value.toList) with - | a
    · simp [hread]
    · simp [hread]

/-- The settings in the environment if all numbers can be read. -/
def Layer.ofVariables (lookup : String → Option String) : Layer where
  solver := {
    tolerance := variableValue lookup readFloat? "NEWTON_TOLERANCE"
    maxIterations := variableValue lookup readCount? "NEWTON_MAX_ITERATIONS"
    maxRadius := (variableValue lookup readFloat? "NEWTON_MAX_RADIUS").map some
    stepScale := variableValue lookup readFloat? "NEWTON_STEP_SCALE" }
  logLevel := lookup "NEWTON_LOG_LEVEL"

/-- Reading the variables one by one comes to looking for the first that is refused. -/
theorem Layer.ofEnvironment_eq :
    ofEnvironment lookup = (firstFault? lookup).elim (.ok (ofVariables lookup)) .error := by
  rw [ofEnvironment, readVariable_eq, readVariable_eq, readVariable_eq, readVariable_eq,
    firstFault?, numberVariables, List.findSome?_cons, List.findSome?_cons, List.findSome?_cons,
    List.findSome?_cons, List.findSome?_nil]
  -- a variable that is refused ends both sides alike
  rcases NumberVariable.fault? lookup ⟨"NEWTON_TOLERANCE", _⟩ with - | fault
  · rcases NumberVariable.fault? lookup ⟨"NEWTON_MAX_ITERATIONS", _⟩ with - | fault
    · rcases NumberVariable.fault? lookup ⟨"NEWTON_MAX_RADIUS", _⟩ with - | fault
      · rcases NumberVariable.fault? lookup ⟨"NEWTON_STEP_SCALE", _⟩ with - | fault
        · rfl
        · rfl
      · rfl
    · rfl
  · rfl

end Environment

/-! ### All places together -/

/-- Each setting is what the flags give for it, or else the variables, or else the file, or else it
is the standard one. -/
structure Settings.ComesFrom (s : Settings) (given : CommandLine.Given)
    (lookup : String → Option String) (file : Layer) : Prop where
  tolerance : s.solver.tolerance = ((flagValue given CommandLine.real? "tolerance").or
    ((variableValue lookup readFloat? "NEWTON_TOLERANCE").or
      file.solver.tolerance)).getD standard.solver.tolerance
  maxIterations : s.solver.maxIterations = ((flagValue given CommandLine.count? "max-iterations").or
    ((variableValue lookup readCount? "NEWTON_MAX_ITERATIONS").or
      file.solver.maxIterations)).getD standard.solver.maxIterations
  maxRadius : s.solver.maxRadius = (((flagValue given CommandLine.real? "max-radius").map some).or
    (((variableValue lookup readFloat? "NEWTON_MAX_RADIUS").map some).or
      file.solver.maxRadius)).getD standard.solver.maxRadius
  stepScale : s.solver.stepScale = ((variableValue lookup readFloat? "NEWTON_STEP_SCALE").or
    file.solver.stepScale).getD standard.solver.stepScale
  scheme : s.solver.scheme = file.solver.scheme.getD standard.solver.scheme
  singularityTolerance : s.solver.singularityTolerance
    = file.solver.singularityTolerance.getD standard.solver.singularityTolerance
  logLevel : s.logLevel = ((lookup "NEWTON_LOG_LEVEL").or file.logLevel).getD standard.logLevel

namespace Settings

variable {given : CommandLine.Given} {lookup : String → Option String} {l : Layer} {s : Settings}

/-- Laying the flags over the variables, these over the file and that over the standard settings
takes each setting from the first place that gives it. -/
theorem comesFrom_overlay : ComesFrom
    ((CommandLine.flags given).overlay ((Layer.ofVariables lookup).overlay (l.overlay standard)))
    given lookup l where
  tolerance := by rw [Option.getD_or, Option.getD_or]; rfl
  maxIterations := by rw [Option.getD_or, Option.getD_or]; rfl
  maxRadius := by rw [Option.getD_or, Option.getD_or]; rfl
  stepScale := by rw [Option.getD_or]; rfl
  scheme := rfl
  singularityTolerance := rfl
  logLevel := by rw [Option.getD_or]; rfl

/-- The places determine the settings. -/
theorem ComesFrom.unique {s' : Settings} (h : s.ComesFrom given lookup l)
    (h' : s'.ComesFrom given lookup l) : s = s' := by
  obtain ⟨⟨t, n, r, e, c, g⟩, level⟩ := s
  obtain ⟨⟨t', n', r', e', c', g'⟩, level'⟩ := s'
  obtain rfl : t = t' := h.tolerance.trans h'.tolerance.symm
  obtain rfl : n = n' := h.maxIterations.trans h'.maxIterations.symm
  obtain rfl : r = r' := h.maxRadius.trans h'.maxRadius.symm
  obtain rfl : e = e' := h.stepScale.trans h'.stepScale.symm
  obtain rfl : c = c' := h.scheme.trans h'.scheme.symm
  obtain rfl : g = g' := h.singularityTolerance.trans h'.singularityTolerance.symm
  obtain rfl : level = level' := h.logLevel.trans h'.logLevel.symm
  rfl

/-- Loading fails by the first fault, and otherwise it lays the places over each other. -/
theorem load_eq {file : FileState} (hfile : file.layer = .ok l) (flags : Layer) :
    load file lookup flags = (firstFault? lookup).elim
      (.ok (flags.overlay ((Layer.ofVariables lookup).overlay (l.overlay standard)))) .error := by
  rw [load, hfile, Layer.ofEnvironment_eq]
  rcases firstFault? lookup with - | fault
  · rfl
  · rfl

/-- **The flags decide before the variables, these before the file, and the file before the standard
settings.**  Let the file be there and describe settings, or not exist.  Whatever the variables and
the options on the command line are:

* If one of the variables that have to be numbers is set to something else, loading fails, and it
  reports the first such variable and its text as it is, also if a flag gives the same setting.
* Otherwise it succeeds, and each setting comes from the first place that gives it.

The flags of arguments that are accepted are those of the options that they give, and these stand
for numbers, so that no option for a setting is passed over. -/
theorem load_precedence {file : FileState} (hfile : file.layer = .ok l)
    (lookup : String → Option String) (given : CommandLine.Given) :
    file.Says l
      ∧ (∀ fault, load file lookup (CommandLine.flags given) = .error fault
          ↔ ∃ key value, FirstRefused lookup key value ∧ fault = .override key value)
      ∧ (∀ s, load file lookup (CommandLine.flags given) = .ok s
          ↔ (∀ v ∈ numberVariables, ∀ value, ¬v.Refuses lookup value)
            ∧ s.ComesFrom given lookup l)
      ∧ ∀ arguments i, CommandLine.readArguments arguments = .ok i →
          ∃ options, CommandLine.Gives arguments options ∧ options.HasNumbers
            ∧ i.flags = CommandLine.flags options := by
  refine ⟨FileState.says_of_layer hfile, ?_, ?_, ?_⟩
  · intro fault
    rw [← firstFault?_eq_some_iff, load_eq hfile]
    rcases firstFault? lookup with - | fault' <;> simp
  · intro s
    rw [← firstFault?_eq_none_iff, load_eq hfile]
    rcases firstFault? lookup with - | fault
    · constructor
      · intro h
        obtain rfl := Except.ok.inj h
        exact ⟨rfl, comesFrom_overlay⟩
      · rintro ⟨-, hs⟩
        -- the settings that are loaded come from these places, and there are no others that do
        exact congrArg Except.ok (comesFrom_overlay.unique hs)
    · simp
  · intro arguments i hread
    obtain ⟨options, hgives, hflags⟩ := CommandLine.exists_gives_of_readArguments hread
    exact ⟨options, hgives, CommandLine.hasNumbers_of_gives hgives, hflags⟩

/-- A file that gives three settings of a solve and the level of the log. -/
def sampleFile : FileState :=
  .text
    "log_level = \"debug\"\n[solver]\nscheme = \"central\"\nmax_iterations = 50\ntolerance = 1e-10"

/-- What `sampleFile` says. -/
def sampleLayer : Layer where
  solver := { tolerance := some 1e-10, maxIterations := some 50, scheme := some .central }
  logLevel := some "debug"

/-- An environment that gives the tolerance and the difference step. -/
def sampleVariables : String → Option String :=
  (List.lookup · [("NEWTON_STEP_SCALE", "1e-4"), ("NEWTON_TOLERANCE", " 1e-9\n")])

/-- An environment in which two variables are no numbers. -/
def unreadableVariables : String → Option String :=
  (List.lookup · [("NEWTON_STEP_SCALE", "small"), ("NEWTON_MAX_ITERATIONS", " many")])

/-- The tolerance is given by all four places, the budget by the file alone, the radius by a flag
and the difference step by a variable.  In the other environment the flag for the budget does not
help. -/
theorem load_precedence_sample :
    sampleFile.layer = .ok sampleLayer
      ∧ load sampleFile sampleVariables
          (CommandLine.flags [("tolerance", "1e-8"), ("max-radius", "2")])
        = .ok ⟨⟨1e-8, 50, some 2, 1e-4, .central, 1e-30⟩, "debug"⟩
      ∧ load sampleFile unreadableVariables (CommandLine.flags [("max-iterations", "7")])
        = .error (.override "NEWTON_MAX_ITERATIONS" " many")
      ∧ ∃ options, CommandLine.Gives ["--tolerance", "1e-8", "check", "--max-radius=2"] options
          ∧ options.HasNumbers := by
  have hfile : sampleFile.layer = .ok sampleLayer := by decide +kernel
  obtain ⟨-, -, hok, harguments⟩ := load_precedence hfile sampleVariables
    [("tolerance", "1e-8"), ("max-radius", "2")]
  obtain ⟨-, herror, -⟩ := load_precedence hfile unreadableVariables [("max-iterations", "7")]
  refine ⟨hfile, ?_, ?_, ?_⟩
  · refine (hok _).mpr ⟨firstFault?_eq_none_iff.mp ?_, ?_⟩
    · decide +kernel
    · constructor <;> decide +kernel
  · refine (herror _).mpr (firstFault?_eq_some_iff.mp ?_)
    decide +kernel
  · have haccepted : (CommandLine.readArguments
        ["--tolerance", "1e-8", "check", "--max-radius=2"]).toOption.isSome := by
      decide +kernel
    rcases hread : CommandLine.readArguments ["--tolerance", "1e-8", "check", "--max-radius=2"]
      with e | i
    · rw [hread] at haccepted
      cases haccepted
    · obtain ⟨options, hgives, hnumbers, -⟩ := harguments _ i hread
      exact ⟨options, hgives, hnumbers⟩

end Settings

end NewtonMethod
