import ViewCompiler.Config.Basic
import ViewCompiler.Config.Setting

/-!
# Loading a configuration

Every setting has a two-part name, `section.name`. Its value comes from the first source that has
one: a flag of the command line that was given, a variable of the environment, the configuration
file, and last the default of a flag. A variable for a whole section hides what the later sources
say about it.

A variable of the environment counts as a value of its setting, but the setting is only read when
the file or a flag speaks of it too.
-/

namespace ViewCompiler.Config

open ViewCompiler.Text

/-- A flag of the command line that stands for a setting. -/
structure BoundFlag where
  section_ : String
  name : String
  value : String
  /-- Whether the flag was given. -/
  given : Bool
  deriving DecidableEq, Repr

/-- Where settings come from. -/
structure Sources where
  /-- What the configuration file says. -/
  file : Setting := .group []
  /-- The variables of the environment, where these count. -/
  environment : List (String × String) := []
  flags : List BoundFlag := []

namespace Sources

/-- What the file says about a name. -/
def inFile? (s : Sources) (path : List String) : Option Setting :=
  (s.file.leaves.filter fun (_, v) => match v with | .absent => false | _ => true).lookup path

/-- The group that the file has under a name, without what is in it. -/
def groupInFile? (s : Sources) (path : List String) : Option Setting :=
  if s.file.groups.contains path then some (.group []) else none

/-- Whether the file mentions a name, with or without a value. -/
def mentions (s : Sources) (path : List String) : Bool := s.file.leaves.any (·.1 = path)

/-- The variable of the environment for a name. -/
def variableFor (path : List String) : String := "WANE_" ++ (join "_" path).map Char.toUpper

/-- The value of the variable for a name. An empty variable counts as none. -/
def inEnvironment? (s : Sources) (path : List String) : Option String :=
  (s.environment.lookup (variableFor path)).filter (· ≠ "")

/-- The flag that stands for a setting. -/
def flag? (s : Sources) (section_ name : String) : Option BoundFlag :=
  s.flags.find? fun f => f.section_ = section_ && f.name = name

/-- The value of a setting without the defaults of flags. -/
def given? (s : Sources) (section_ name : String) : Option Setting :=
  match (s.flag? section_ name).filter (·.given) with
  | some f => some (.text f.value)
  | none =>
    match s.inEnvironment? [section_, name] with
    | some v => some (.text v)
    | none =>
      if (s.inEnvironment? [section_]).isSome then none
      else (s.inFile? [section_, name]).or (s.groupInFile? [section_, name])

/-- The value of a setting. -/
def value? (s : Sources) (section_ name : String) : Option Setting :=
  (s.given? section_ name).or <|
    if (s.inEnvironment? [section_]).isSome || (s.inFile? [section_]).isSome then none
    else (s.flag? section_ name).map fun f => .text f.value

/-- The value of a setting that some source speaks of. -/
def read? (s : Sources) (section_ name : String) : Option Setting :=
  if s.mentions [section_, name] || (s.flag? section_ name).isSome then s.value? section_ name
  else none

/-- The names of the settings by section. -/
def names : List (String × List String) :=
  [("components", ["scan_paths", "exclude_patterns"]),
   ("compile", ["root", "output", "format", "workers"]),
   ("watch", ["debounce"]),
   ("log", ["level", "format"])]

/-- The variables of the environment that count. -/
def variableNames : List String :=
  names.flatMap fun (section_, settings) =>
    variableFor [section_] :: settings.map fun name => variableFor [section_, name]

/-- Whether a section is given a single value, or a setting is given a group of values. -/
def isMisshapen (s : Sources) : Bool :=
  names.any fun (section_, settings) =>
    (s.inFile? [section_]).isSome ||
      s.file.leaves.any fun (path, v) =>
        match path, v with
        | _, .absent => false
        | a :: b :: _ :: _, _ => a = section_ && settings.contains b
        | _, _ => false

end Sources

/-- Why no configuration could be loaded. -/
inductive LoadError where
  /-- A value cannot be read as what it is needed for. -/
  | mismatch
  | invalid (fault : Fault)
  deriving DecidableEq, Repr

/-- The message for a configuration that could not be loaded. -/
def LoadError.message : LoadError → String
  | mismatch => "decoding failed"
  | invalid fault => "invalid configuration: " ++ fault.message

/-- Reads a setting, or gives the value it has when it is not set. -/
def readSetting {α : Type} (s : Sources) (section_ name : String) (unset : α)
    (convert? : Setting → Option α) : Except LoadError α :=
  match s.read? section_ name with
  | none => .ok unset
  | some v => (convert? v).elim (.error .mismatch) .ok

/-- Loads a configuration. An empty string stands for the default; a list, the number of workers and
the waiting time have their defaults only where they are not given. -/
def load (s : Sources) : Except LoadError Config := do
  if s.isMisshapen then throw .mismatch
  let defaults : Config := {}
  let text (section_ name default : String) : Except LoadError String := do
    let v ← readSetting s section_ name "" Setting.toText?
    return if v = "" then default else v
  let texts (section_ name : String) (default : List String) : Except LoadError (List String) := do
    let v ← readSetting s section_ name [] Setting.toTexts?
    return if v.isEmpty && (s.given? section_ name).isNone then default else v
  let scanPaths ← texts "components" "scan_paths" defaults.scanPaths
  let excludePatterns ← texts "components" "exclude_patterns" defaults.excludePatterns
  let root ← text "compile" "root" defaults.root
  let output ← text "compile" "output" defaults.output
  let format ← text "compile" "format" defaults.format
  let workers ← readSetting s "compile" "workers" 0 Setting.toInteger?
  let debounce ← readSetting s "watch" "debounce" ⟨0⟩ Setting.toDuration?
  let logLevel ← text "log" "level" defaults.logLevel
  let logFormat ← text "log" "format" defaults.logFormat
  let workers := if (s.given? "compile" "workers").isNone then defaults.workers else workers
  let debounce := if (s.given? "watch" "debounce").isNone then defaults.debounce else debounce
  let c : Config :=
    { scanPaths, excludePatterns, root, output, format, workers, debounce, logLevel, logFormat }
  c.validate.mapError .invalid

end ViewCompiler.Config
