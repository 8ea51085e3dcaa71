import ViewCompiler.Duration
import ViewCompiler.Glob
import ViewCompiler.Problem

/-!
# Configurations

What a run of the program can be told: where components are found, what is compiled and how the
result is written, how long the watch waits, and what is logged. `Config.validate` stops at the
first value that makes no sense.
-/

namespace ViewCompiler

open ViewCompiler.Text

/-- What a run can be told. -/
structure Config where
  scanPaths : List String := ["./components"]
  excludePatterns : List String := ["*_test.w.html"]
  /-- The component to compile, by name or tag. -/
  root : String := "App"
  /-- The file that the result is written to; the standard output when empty. -/
  output : String := ""
  format : String := "yaml"
  workers : Int := 4
  /-- How long the watch waits for further changes. -/
  debounce : Duration := .ofMillis 300
  logLevel : String := "info"
  logFormat : String := "text"
  deriving DecidableEq, Repr

namespace Config

/-- The formats that a result can be written in. -/
def formats : List String := ["yaml", "json"]

/-- The names of the log levels. -/
def levels : List String := ["debug", "info", "warn", "error"]

/-! ### Paths in configurations -/

/-- Why a configured path is refused. -/
inductive PathFault where
  | empty
  | nul
  | escape (path : String)
  | dangerous (c : Char)
  deriving DecidableEq, Repr

/-- The message for a refused path. -/
def PathFault.message : PathFault → String
  | empty => "empty path"
  | nul => "path contains a NUL byte"
  | escape path => "path contains traversal: " ++ path
  | dangerous c => "path contains dangerous character: " ++ String.ofList [c]

/-- The characters that no configured path may hold, in the order in which they are looked for. -/
def dangerousChars : List Char := ";&|$`<>\"'".toList

/-- What is wrong with a configured path. -/
def pathFault? (path : String) : Option PathFault :=
  if path = "" then some .empty
  else if Path.hasNul path then some .nul
  else if Path.escapes path then some (.escape path)
  else (dangerousChars.find? (Path.clean path).toList.contains).map .dangerous

/-! ### Validity -/

/-- Why a configuration is refused. -/
inductive Fault where
  | noScanPaths
  | scanPath (path : String) (fault : PathFault)
  | excludePattern (pattern : String)
  | format (name : String)
  | workers (n : Int)
  | output (path : String) (fault : PathFault)
  | debounce (d : Duration)
  | logLevel (name : String)
  | logFormat (name : String)
  deriving DecidableEq, Repr

/-- The message for a refused configuration. -/
def Fault.message : Fault → String
  | noScanPaths => "components config: no scan paths"
  | scanPath path fault =>
    "components config: invalid scan path '" ++ path ++ "': " ++ fault.message
  | excludePattern pattern =>
    "components config: invalid exclude pattern '" ++ pattern ++ "': syntax error in pattern"
  | format name =>
    "compile config: unknown format " ++ quote name ++ ", expected one of " ++ join ", " formats
  | workers n => s!"compile config: workers must be at least 1, got {n}"
  | output path fault => "compile config: invalid output '" ++ path ++ "': " ++ fault.message
  | debounce d => "watch config: negative debounce " ++ d.text
  | logLevel name =>
    "log config: unknown level " ++ quote name ++ ", expected one of " ++ join ", " levels
  | logFormat name => "log config: unknown format " ++ quote name ++ ", expected text or json"

/-- Whether a name is that of a log level, whatever its case. -/
def isLevel (name : String) : Bool := levels.contains (lowercase name)

/-- Whether a name is that of a log format. -/
def isLogFormat (name : String) : Bool := name = "text" || name = "json"

/-- What is wrong with the components section, the paths first. -/
def componentsFault? (c : Config) : Option Fault :=
  if c.scanPaths.isEmpty then some .noScanPaths
  else
    (c.scanPaths.findSome? fun p => (pathFault? p).map (.scanPath p)).or
      ((c.excludePatterns.find? fun p => (Glob.ofString? p).isNone).map .excludePattern)

/-- What is wrong with the compile section. -/
def compileFault? (c : Config) : Option Fault :=
  if !formats.contains c.format then some (.format c.format)
  else if c.workers < 1 then some (.workers c.workers)
  else if c.output = "" then none
  else (pathFault? c.output).map (.output c.output)

/-- What is wrong with the watch section. -/
def watchFault? (c : Config) : Option Fault :=
  if c.debounce.nanos < 0 then some (.debounce c.debounce) else none

/-- What is wrong with the log section. -/
def logFault? (c : Config) : Option Fault :=
  if !isLevel c.logLevel then some (.logLevel c.logLevel)
  else if !isLogFormat c.logFormat then some (.logFormat c.logFormat)
  else none

/-- The first thing that is wrong with a configuration, section by section. -/
def fault? (c : Config) : Option Fault :=
  (((c.componentsFault?.or c.compileFault?).or c.watchFault?)).or c.logFault?

/-- Refuses a configuration with a fault. -/
def validate (c : Config) : Except Fault Config :=
  match c.fault? with
  | some fault => .error fault
  | none => .ok c

end Config

end ViewCompiler
