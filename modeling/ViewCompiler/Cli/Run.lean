import ViewCompiler.BuildInfo
import ViewCompiler.Cli.Command
import ViewCompiler.Cli.Listing
import ViewCompiler.Config.File
import ViewCompiler.Config.Load
import ViewCompiler.Config.Report
import ViewCompiler.Watch.FileWatcher
import ViewCompiler.Watch.Session

/-!
# Running commands

A run of the program as a function: from the files, the environment and the command line to the
files afterwards, everything that was written, and whether the run succeeded. What was written
before a problem stays written; the problem itself is reported last.
-/

namespace ViewCompiler.Cli

open ViewCompiler.Text

/-- What a run finds. -/
structure World where
  files : FileTree
  /-- The variables of the environment. -/
  environment : List (String × String) := []
  /-- The path of the working directory. -/
  directory : String
  build : BuildInfo
  /-- Whether the run was cancelled before it began. -/
  cancelled : Bool := false

/-- A session that goes on watching, with the places it watches. -/
structure Watching where
  session : Watch.Session
  watcher : Watch.FileWatcher

/-- What a run has done so far. -/
structure Trace where
  files : FileTree
  emissions : List Emission := []

/-- What a run leaves behind. -/
structure Outcome where
  succeeded : Bool
  files : FileTree
  emissions : List Emission
  /-- The watch that goes on, if there is one. -/
  watching? : Option Watching := none

/-- A part of a run: it can write and change files, and it can end in a problem. -/
abbrev RunM := ExceptT Problem (StateM Trace)

namespace RunM

/-- Writes something. -/
def emit (es : List Emission) : RunM Unit :=
  modify fun t => { t with emissions := t.emissions ++ es }

/-- Writes text to the standard output. -/
def print (text : String) : RunM Unit := emit [.out text]

/-- Writes entries to the log. -/
def log (logger : Log.Logger) (entries : List Log.Entry) : RunM Unit :=
  emit (Emission.ofEntries logger entries)

/-- Goes on with a result, or ends in its problem. -/
def require {α : Type} (r : Except Problem α) : RunM α :=
  match r with
  | .ok a => pure a
  | .error p => throw p

@[simp]
theorem run_emit (es : List Emission) (t : Trace) :
    (emit es).run.run t = (.ok (), { t with emissions := t.emissions ++ es }) := rfl

/-- A problem keeps all that has been done. -/
@[simp]
theorem run_require_error {α : Type} (p : Problem) (t : Trace) :
    (require (.error p) : RunM α).run.run t = (.error p, t) := rfl

end RunM

open RunM

/-! ### Configuration -/

/-- The variable that names the configuration file. -/
def configVariable : String := "WANE_CONFIG_FILE"

/-- The path of the configuration file, where the command line or else the environment names one. -/
def configPath? (w : World) (a : Arguments) : Option String :=
  (some (a.text "config")).filter (· ≠ "") |>.or
    ((w.environment.lookup configVariable).filter (· ≠ ""))

/-- Reads the configuration file and tells which one it was. -/
def readConfigFile (w : World) (a : Arguments) : RunM Setting := do
  let found (path : String) : RunM Unit := emit [.err ("Using config file: " ++ path ++ "\n")]
  match configPath? w a with
  | some path =>
    match Config.File.readNamed w.files path with
    | .error e => throw (.context "reading config file" (.plain e.message))
    | .ok s => found path; return s
  | none =>
    match Config.File.readDefault? w.files with
    | none => return .group []
    | some (name, s) => found (Path.child w.directory name); return s

/-- The flags that stand for settings. A positional argument of a command that compiles names the
root, and wins over the flag. -/
def boundFlags (c : Command) (a : Arguments) : List Config.BoundFlag :=
  let bound (section_ name : String) (value? : Option String) : Config.BoundFlag :=
    ⟨section_, name, value?.getD "", value?.isSome⟩
  bound "log" "level" (a.text? "log-level") ::
    match c with
    | .compile | .watch =>
      [bound "compile" "root" (a.positional.head?.or (a.text? "root")),
       bound "compile" "output" (a.text? "output"), bound "compile" "format" (a.text? "format")]
    | _ => []

/-- Loads the configuration of a command. -/
def loadConfig (w : World) (c : Command) (a : Arguments) : RunM Config := do
  let file ← readConfigFile w a
  match Config.load { file, environment := w.environment, flags := boundFlags c a } with
  | .ok config => return config
  | .error e => throw (.context "failed to load configuration" (.plain e.message))

/-- The logger that a configuration asks for. -/
def loggerOf (config : Config) : RunM Log.Logger :=
  match Log.Level.ofName? config.logLevel with
  | some level => return { level, format := .ofName config.logFormat }
  | none => throw (.plain (Log.Level.unknown config.logLevel))

/-- Scans for components. -/
def scan (w : World) (config : Config) : Registry × Option Problem :=
  Scan.directories w.files config.excludePatterns w.cancelled {} config.scanPaths

/-- Scans for components and ends in the first problem. -/
def scanAll (w : World) (config : Config) : RunM Registry :=
  match scan w config with
  | (reg, none) => return reg
  | (_, some p) => throw p

/-- Scans for components and goes on with those found. -/
def scanSome (w : World) (config : Config) (logger : Log.Logger) (warning : String) :
    RunM Registry := do
  let (reg, problem) := scan w config
  log logger (problem.elim [] fun p => logger.warn (some p.message) warning)
  return reg

/-! ### Commands -/

/-- Compiles the root component. -/
def runCompile (w : World) (config : Config) (logger : Log.Logger) : RunM Unit := do
  let reg ← scanAll w config
  log logger (logger.debug "Scanned components" [("count", .count reg.size)])
  let run := compile none reg config.root w.cancelled
  log logger (run.entries logger)
  let compilation ← require run.outcome
  let program ← require (Program.project compilation)
  let (files, es) ← require (program.publish config logger w.files)
  modify fun t => { t with files }
  emit es

/-- Reports every problem of the components. -/
def runCheck (w : World) (config : Config) (logger : Log.Logger) (a : Arguments) : RunM Unit := do
  let quiet := a.isOn "quiet"
  let report := config.report w.files.contains
  if !report.warnings.isEmpty && !quiet then emit [.err report.text]
  let reg ← scanAll w config
  let run := check none reg w.cancelled
  log logger (run.entries logger)
  let found ← require run.outcome
  print (String.join (found.sorted.map fun d => d.text ++ "\n"))
  if found.hasErrors then
    throw (.plain s!"check found {found.diagnostics.length} problems in {reg.size} components")
  if !quiet then print s!"{reg.size} components ok\n"

/-- The tag of the component that a style sheet is named after. -/
def tagOfStyleFile (path : String) : String :=
  let stem := (dropSuffix? SourceFile.style (Path.base path)).getD (Path.base path)
  Tag.ofName (Tag.toName (String.ofList (replaceChar '_' ['-'] stem.toList)))

/-- Scopes a style sheet. -/
def runStyle (w : World) (config : Config) (logger : Log.Logger) (a : Arguments) : RunM Unit := do
  let path := a.positional.headD ""
  let css ← match w.files.read path with
    | .ok text => pure text
    | .error e => throw (.context "reading stylesheet" (.plain e.message))
  let tag := if a.text "tag" = "" then tagOfStyleFile path else a.text "tag"
  let reg ← scanSome w config logger
    "Component scan incomplete, child selectors resolve against the components found"
  match Style.encapsulate css tag (a.integer "id") reg.tag? with
  | .ok text => print (text ++ "\n")
  | .error e => throw (.context path e.problem)

/-- Lists the components. -/
def runList (w : World) (config : Config) (logger : Log.Logger) (a : Arguments) : RunM Unit := do
  let listing : Listing := { members := a.isOn "with-meta", uses := a.isOn "with-deps" }
  let reg ← scanSome w config logger "Component scan incomplete"
  let reg ←
    if listing.uses then do
      let (problem, reg) := reg.refreshUses
      log logger (problem.elim [] fun p =>
        logger.warn (some p.message) "Some templates failed to parse")
      pure reg
    else pure reg
  print (listing.render (a.text "format") reg.components)

/-- What is known about the build, as a record. -/
def buildRecord (b : BuildInfo) : Document :=
  .record ([("version", .text b.version), ("git_commit", .text b.commit),
    ("build_time", .moment b.builtAt.exactText), ("go_version", .text b.toolchain),
    ("platform", .text b.platform)] ++ (if b.isDirty then [("dirty", .flag true)] else []) ++
    [("is_release", .flag b.isRelease)])

/-- What is known about the build, as the flags ask for it. -/
def versionText (b : BuildInfo) (a : Arguments) : String :=
  let format := a.text "format"
  if format = "json" || format = "yaml" then writeDocument format (buildRecord b)
  else if a.isOn "short" then b.version ++ "\n"
  else if a.isOn "detailed" then
    b.detailed ++ "\nBuild type: " ++ (if b.isRelease then "release" else "development") ++ "\n"
  else programName ++ " " ++ b.short ++ "\n"

/-- The filters of a watch. -/
def watchFilters (config : Config) : List (String → Bool) :=
  [SourceFile.ofComponent, SourceFile.isNoTest, SourceFile.isOutside "vendor",
   SourceFile.isOutside ".git", SourceFile.isVisible, SourceFile.isIncluded config.excludePatterns]

/-- Watches the places where components are found, one after the other. -/
def watchAll (logger : Log.Logger) : List String → Watch.FileWatcher → RunM Watch.FileWatcher
  | [], watcher => return watcher
  | path :: paths, watcher => do
    match watcher.addRecursive (← get).files path with
    | .error e => throw (.context ("failed to watch path " ++ path) (.plain e.message))
    | .ok watcher =>
      log logger (logger.info "Watching" [("path", .text path)])
      watchAll logger paths watcher

/-- Compiles the root component and starts to watch. -/
def runWatch (w : World) (config : Config) (logger : Log.Logger) : RunM Watching := do
  let (session, es) := Watch.Session.start config logger w.files w.cancelled
  emit es
  if w.cancelled then throw .cancelled
  let first := session.rebuild w.files false
  modify fun t => { t with files := first.files }
  emit first.emissions
  let watcher ← watchAll logger config.scanPaths { filters := watchFilters config }
  return { session := first.session, watcher }

/-- Runs a command. -/
def Command.perform (w : World) (c : Command) (a : Arguments) : RunM (Option Watching) := do
  if c = version then
    print (versionText w.build a)
    return none
  let config ← loadConfig w c a
  let logger ← loggerOf config
  match c with
  | compile => runCompile w config logger; return none
  | check => runCheck w config logger a; return none
  | style => runStyle w config logger a; return none
  | list => runList w config logger a; return none
  | watch => some <$> runWatch w config logger
  | version => return none

/-! ### Runs -/

/-- What the program says about itself. -/
def helpText : String :=
  let line (c : Command) : List String :=
    ["  " ++ c.name ++ c.alias?.elim "" (", " ++ ·), c.summary]
  "A compiler for component templates\n\nUsage:\n  " ++ programName ++ " [command]\n\n" ++
    "Available Commands:\n" ++ Columns.render (Command.all.map line)

/-- How a problem is reported. -/
def reportOf (message : String) : Emission := .err ("Error: " ++ message ++ "\n")

/-- Runs the program on the arguments of its command line. -/
def run (w : World) (arguments : List String) : Outcome :=
  match Request.read arguments with
  | .error fault => ⟨false, w.files, [reportOf fault.message, .err fault.advice], none⟩
  | .ok .help => ⟨true, w.files, [.out helpText], none⟩
  | .ok (.run command given) =>
    match (command.perform w given).run.run { files := w.files } with
    | (.error p, t) => ⟨false, t.files, t.emissions ++ [reportOf p.message], none⟩
    | (.ok watching?, t) => ⟨true, t.files, t.emissions, watching?⟩

/-- Ends the watch that goes on. -/
def Outcome.stop (o : Outcome) : Outcome :=
  match o.watching? with
  | none => o
  | some ⟨session, _⟩ =>
    let entries := session.logger.info "Stopping file watcher"
    { o with
      emissions := o.emissions ++ Emission.ofEntries session.logger entries
      watching? := none }

/-- A faulty command line changes no file. -/
theorem files_run_of_fault {w : World} {arguments : List String} {fault : UsageFault}
    (h : Request.read arguments = .error fault) : (run w arguments).files = w.files := by
  simp [run, h]

end ViewCompiler.Cli
