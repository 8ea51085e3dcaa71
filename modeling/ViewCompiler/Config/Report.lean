import ViewCompiler.Config.Basic

/-!
# Reports on configurations

A report lists everything that is wrong with a configuration, and everything that is allowed but
unwise, each with hints on what to do about it. Whether a scan path exists is asked of the caller.
-/

namespace ViewCompiler.Config

open ViewCompiler.Text

/-- Something to say about a configuration. -/
structure Issue where
  field : String
  /-- The value as it is shown. -/
  value : String
  message : String
  hints : List String := []
  deriving DecidableEq, Repr

namespace Issue

/-- An issue in one line. -/
def text (i : Issue) : String := "validation error in " ++ i.field ++ ": " ++ i.message

/-- An issue with its hints, as one item of a list. -/
def item (i : Issue) : String :=
  "  • " ++ i.field ++ ": " ++ i.message ++ "\n" ++
    String.join (i.hints.map fun h => "    hint: " ++ h ++ "\n")

end Issue

/-- Everything there is to say about a configuration. -/
structure Report where
  errors : List Issue := []
  warnings : List Issue := []
  /-- What the report says of itself. It is settled once all sections have been looked at. -/
  isValid : Bool := true
  deriving DecidableEq, Repr

namespace Report

/-- Whether something is wrong. -/
def hasErrors (r : Report) : Bool := !r.errors.isEmpty

/-- The report as text. -/
def text (r : Report) : String :=
  let errors :=
    if r.errors.isEmpty then ""
    else "Validation Errors:\n" ++ String.join (r.errors.map (·.item)) ++ "\n"
  let warnings :=
    if r.warnings.isEmpty then ""
    else "Validation Warnings:\n" ++ String.join (r.warnings.map (·.item))
  errors ++ warnings

/-- Two reports, one after the other. -/
def append (a b : Report) : Report :=
  { a with errors := a.errors ++ b.errors, warnings := a.warnings ++ b.warnings }

instance : Append Report := ⟨append⟩

/-- A report of one error. -/
def error (i : Issue) : Report := { errors := [i] }

/-- A report of one warning. -/
def warning (i : Issue) : Report := { warnings := [i] }

/-- One report after another. -/
def join (rs : List Report) : Report := rs.foldr append {}

@[simp]
theorem errors_append (a b : Report) : (a ++ b).errors = a.errors ++ b.errors := rfl

@[simp]
theorem errors_join (rs : List Report) : (join rs).errors = rs.flatMap (·.errors) := by
  induction rs with
  | nil => rfl
  | cons r rs ih =>
    have : (join (r :: rs)).errors = r.errors ++ (join rs).errors := rfl
    rw [this, ih, List.flatMap_cons]

end Report

/-! ### Sections -/

/-- A list of strings as it is shown. -/
def shownList (values : List String) : String := "[" ++ Text.join " " values ++ "]"

/-- What there is to say about one scan path. -/
def scanPathReport (exists_ : String → Bool) (path : String) : Report :=
  match pathFault? path with
  | some fault =>
    .error { field := "components.scan_paths", value := path, message := fault.message
             hints := ["Use paths relative to the project root",
               "Avoid parent directory references (..)"] }
  | none =>
    if exists_ path then {}
    else
      .warning { field := "components.scan_paths", value := path
                 message := "scan path '" ++ path ++ "' does not exist"
                 hints := ["Create the directory with 'mkdir -p " ++ path ++ "'"] }

/-- What there is to say about one exclude pattern. -/
def patternReport (pattern : String) : Report :=
  if (Glob.ofString? pattern).isSome then {}
  else
    .error { field := "components.exclude_patterns", value := pattern
             message := "malformed pattern: syntax error in pattern"
             hints := ["Patterns follow filepath.Match, e.g. '*_test.w.html'"] }

/-- What there is to say about the components section. -/
def componentsReport (exists_ : String → Bool) (c : Config) : Report :=
  let none_ : Report :=
    if c.scanPaths.isEmpty then
      .error { field := "components.scan_paths", value := shownList c.scanPaths
               message := "no scan paths specified"
               hints := ["Add './components' to scan the default directory"] }
    else {}
  let tests : Report :=
    if c.excludePatterns.any (contains "_test.w.html") then {}
    else
      .warning { field := "components.exclude_patterns", value := shownList c.excludePatterns
                 message := "test templates are not excluded"
                 hints := ["Add '*_test.w.html' to exclude patterns"] }
  none_ ++ .join (c.scanPaths.map (scanPathReport exists_)) ++
    .join (c.excludePatterns.map patternReport) ++ tests

/-- What there is to say about the compile section. -/
def compileReport (c : Config) : Report :=
  let root : Report :=
    if c.root ≠ "" then {}
    else
      .error { field := "compile.root", value := c.root, message := "root component cannot be empty"
               hints := ["Use 'App' for the conventional entry component"] }
  let format : Report :=
    if formats.contains c.format then {}
    else
      .error { field := "compile.format", value := c.format
               message := "unknown format '" ++ c.format ++ "'"
               hints := ["Available formats: " ++ Text.join ", " formats] }
  let workers : Report :=
    if c.workers < 1 then
      .error { field := "compile.workers", value := toString c.workers
               message := "workers must be at least 1"
               hints := ["Use 4 for the default parallelism"] }
    else if c.workers > 64 then
      .warning { field := "compile.workers", value := toString c.workers
                 message := "more workers than files rarely helps" }
    else {}
  let output : Report :=
    if c.output = "" then {}
    else match pathFault? c.output with
      | none => {}
      | some fault =>
        .error { field := "compile.output", value := c.output, message := fault.message
                 hints := ["Leave empty to write to standard output"] }
  root ++ format ++ workers ++ output

/-- What there is to say about the watch section. -/
def watchReport (c : Config) : Report :=
  if c.debounce.nanos < 0 then
    .error { field := "watch.debounce", value := c.debounce.text
             message := "debounce cannot be negative" }
  else if 0 < c.debounce.nanos && c.debounce.nanos < (Duration.ofMillis 10).nanos then
    .warning { field := "watch.debounce", value := c.debounce.text
               message := "very short debounce recompiles on every editor write"
               hints := ["Use 300ms to coalesce bursts of events"] }
  else {}

/-- What there is to say about the log section. -/
def logReport (c : Config) : Report :=
  let level : Report :=
    if isLevel c.logLevel then {}
    else
      .error { field := "log.level", value := c.logLevel
               message := "unknown level '" ++ c.logLevel ++ "'"
               hints := ["Available levels: " ++ Text.join ", " levels] }
  let format : Report :=
    if isLogFormat c.logFormat then {}
    else
      .error { field := "log.format", value := c.logFormat
               message := "unknown format '" ++ c.logFormat ++ "'"
               hints := ["Use 'text' for terminals and 'json' for log collectors"] }
  level ++ format

/-- Everything there is to say about a configuration, where `exists_` tells which paths exist. -/
def report (exists_ : String → Bool) (c : Config) : Report :=
  let r := c.componentsReport exists_ ++ c.compileReport ++ c.watchReport ++ c.logReport
  { r with isValid := !r.hasErrors }

end ViewCompiler.Config
