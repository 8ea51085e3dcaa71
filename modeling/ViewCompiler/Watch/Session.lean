import ViewCompiler.Compile.Metrics
import ViewCompiler.Program.Projection
import ViewCompiler.Program.Publish
import ViewCompiler.Scan
import ViewCompiler.Watch.Debouncer

/-!
# Watch sessions

A session keeps the registry and the templates that were read between one rebuild and the next. A
change of a file concerns the component it belongs to: the component is forgotten and, if its
template still exists, scanned anew. A rebuild that fails is logged, and what was written before
stays.
-/

namespace ViewCompiler.Watch

open ViewCompiler.Text

/-- What is kept between rebuilds. -/
structure Session where
  config : Config
  logger : Log.Logger
  registry : Registry := {}
  cache : ParseCache

namespace Session

/-- The number of templates that are kept. -/
def cacheSize : Int := 512

/-- Starts a session with a scan. A component that cannot be scanned does not stop it. -/
def start (config : Config) (logger : Log.Logger) (files : FileTree) (cancelled : Bool) :
    Session × List Emission :=
  let (registry, problem) :=
    Scan.directories files config.excludePatterns cancelled {} config.scanPaths
  let entries := problem.elim [] fun p => logger.warn (some p.message) "Initial scan incomplete"
  ({ config, logger, registry, cache := .ofSize cacheSize }, Emission.ofEntries logger entries)

/-- Scans the component of a template anew. -/
def rescan (s : Session) (files : FileTree) (template : String) : Session × List Log.Entry :=
  let (names, registry) := s.registry.removeAt template
  let s := { s with registry, cache := names.foldl ParseCache.erase s.cache }
  if !files.contains template then
    (s, s.logger.debug "Component removed" [("path", .text template)])
  else
    match Scan.file files s.registry template with
    | .ok registry => ({ s with registry }, [])
    | .error p =>
      (s, s.logger.error (some p.message) "Failed to scan component" [("path", .text template)])

/-- The templates of the components that the changed files belong to, each once, in order. -/
def affected (paths : List String) : List String :=
  (paths.filterMap SourceFile.templateFor?).foldl
    (fun seen t => if seen.contains t then seen else seen ++ [t]) []

/-- Scans the components that the changed files belong to; gives also how many there are. -/
def apply (s : Session) (files : FileTree) (paths : List String) : Session × Nat × List Emission :=
  let templates := affected paths
  let (s, entries) := templates.foldl
    (fun (s, entries) t =>
      let (s, more) := s.rescan files t
      (s, entries ++ more)) (s, [])
  (s, templates.length, Emission.ofEntries s.logger entries)

/-- A rebuild: the session and the files after it, what was written, and whether it succeeded. -/
structure Rebuild where
  session : Session
  files : FileTree
  emissions : List Emission
  succeeded : Bool

/-- Compiles the root and publishes the result. -/
def rebuild (s : Session) (files : FileTree) (cancelled : Bool) : Rebuild :=
  let run := compile (some s.cache) s.registry s.config.root cancelled
  let session := { s with registry := run.registry, cache := run.reading.cache.getD s.cache }
  let compiled := Emission.ofEntries s.logger (run.entries s.logger)
  let failed (p : Problem) (what : String) (fields : Log.Fields) : Rebuild :=
    ⟨session, files,
     compiled ++ Emission.ofEntries s.logger (s.logger.error (some p.message) what fields),
      false⟩
  match run.outcome with
  | .error p => failed p "Compile failed" [("root", .text s.config.root)]
  | .ok c =>
    match (Program.project c).bind (·.publish s.config s.logger files) with
    | .error p => failed p "Failed to write model" []
    | .ok (files, published) =>
      let entries := s.logger.info "Compiled" [("root", .text c.root), ("duration", .elapsed)]
      ⟨session, files, compiled ++ published ++ Emission.ofEntries s.logger entries, true⟩

/-- Handles a batch of changes: nothing happens unless a component is affected. -/
def handle (s : Session) (files : FileTree) (cancelled : Bool) (paths : List String) : Rebuild :=
  let (s, changed, applied) := s.apply files paths
  if changed = 0 then ⟨s, files, applied, true⟩
  else
    let entries := s.logger.info "Components changed" [("count", .count changed)]
    let r := s.rebuild files cancelled
    { r with emissions := applied ++ Emission.ofEntries s.logger entries ++ r.emissions }

end Session

end ViewCompiler.Watch
