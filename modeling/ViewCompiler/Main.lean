import ViewCompiler.Cli.Run
import ViewCompiler.Watch.FileWatcher

/-!
# The program

The outermost layer: it looks at the disk and the environment, runs the command line as a function
of what it found, writes what came out of it, and lets a watch look again from time to time.
-/

namespace ViewCompiler.Terminal

open ViewCompiler

/-! ### Looking -/

/-- Whether the text of a file matters; of other files only their existence does. -/
def matters (path : String) : Bool :=
  SourceFile.ofComponent path || Config.File.defaultNames.contains path

/-- The text of a file; nothing where there is none to read. -/
def textOf? (path : String) : IO (Option String) :=
  try return String.fromUTF8? (← IO.FS.readBinFile path) catch _ => return none

/-- Adds what stands in a directory. -/
partial def look (files : FileTree) (directory : String) : IO FileTree := do
  let mut files := files
  for entry in ← ((← IO.currentDir) / directory).readDir do
    let path := Path.child directory entry.fileName
    if ← entry.path.isDir then
      files := files.addDirectory path
      unless FileTree.skipped.contains entry.fileName do
        files ← look files path
    else
      let text ← if matters path then textOf? path else pure none
      files := files.write path (text.getD "")
  return files

/-- Adds the files that the arguments name. -/
def lookAtArguments (files : FileTree) (arguments : List String) : IO FileTree := do
  let mut files := files
  for argument in arguments do
    for path in argument :: ((Text.cutString? "=" argument).map (·.2)).toList do
      if let some text ← textOf? path then files := files.write path text
  return files

/-- The variables of the environment that count. -/
def lookAtEnvironment : IO (List (String × String)) := do
  let found ← (Cli.configVariable :: Config.Sources.variableNames).mapM fun name =>
    return (← IO.getEnv name).map (name, ·)
  return found.filterMap id

/-! ### Writing -/

/-- Writes the files that have changed. Whoever reads one finds either the former content or the new
one. -/
def save (before after : FileTree) : IO Unit := do
  for (parts, entry) in after.entries do
    let path := Watch.pathOf parts
    if before.get? parts ≠ some entry then
      match entry with
      | .directory => IO.FS.createDirAll path
      | .file text =>
        IO.FS.writeFile (path ++ "~") text
        IO.FS.rename (path ++ "~") path

/-- What the clock says after the given number of nanoseconds. -/
def clockAfter (nanos : Nat) : Log.Clock :=
  { millis := toString (nanos / 1000000), duration := Duration.text ⟨nanos⟩,
    nanos := toString nanos }

/-- Writes everything in order. -/
def write (clock : Log.Clock) (es : List Emission) : IO Unit := do
  for e in es do
    match e with
    | .out text => IO.print text
    | .err text => IO.eprint text
    | .log format entry => IO.eprint (entry.render format clock)
  (← IO.getStdout).flush

/-! ### Running -/

/-- Looks again and again, and handles what has changed. -/
partial def goOn (watching : Cli.Watching) (before : FileTree) : IO Unit := do
  IO.sleep (watching.session.config.debounce.nanos.toNat / 1000000 + 1).toUInt32
  let started ← IO.monoNanosNow
  let now ← look {} "."
  let (watcher, events) := watching.watcher.observe before now
  let r := watching.session.handle now false (events.map (·.path))
  save now r.files
  write (clockAfter ((← IO.monoNanosNow) - started)) r.emissions
  goOn ⟨r.session, watcher⟩ r.files

/-- Runs the program. -/
def start (arguments : List String) : IO UInt32 := do
  let started ← IO.monoNanosNow
  let environment ← lookAtEnvironment
  let files ← lookAtArguments (← look {} ".") (arguments ++ environment.map (·.2))
  let world : Cli.World :=
    { files, environment, directory := toString (← IO.currentDir)
      build := { toolchain := "Lean 4", platform := "unknown" } }
  let o := Cli.run world arguments
  save files o.files
  write (clockAfter ((← IO.monoNanosNow) - started)) o.emissions
  if let some watching := o.watching? then goOn watching o.files
  return if o.succeeded then 0 else 1

end ViewCompiler.Terminal

def main (arguments : List String) : IO UInt32 := ViewCompiler.Terminal.start arguments
