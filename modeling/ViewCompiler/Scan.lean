import ViewCompiler.Checksum
import ViewCompiler.Compile.Basic
import ViewCompiler.FileTree
import ViewCompiler.Metadata.GoSource.Edges
import ViewCompiler.Metadata.Manifest
import ViewCompiler.SourceFile

/-!
# Scanning for components

A scan walks directories for templates and registers the component of each one. The metadata of a
component come from the manifest beside its template or, where there is none, from the Go source
beside it. A template that fails does not stop the scan of its directory; the directories after it
are not scanned any more.
-/

namespace ViewCompiler

open ViewCompiler.Text

/-- A problem with the files of a scan. -/
def Problem.ofScan (message : String) (cause : Option Problem) : Problem :=
  .ofCode { category := .io, code := "scan_failed", message } cause

/-- A file that could not be used, as a problem of its own. -/
def Problem.ofFile (e : FileError) : Problem := .plain e.message

namespace Scan

/-- Reads a file that need not exist. -/
def readOptional (files : FileTree) (what path : String) : Except Problem (Option String) :=
  match files.read path with
  | .ok content => .ok (some content)
  | .error e =>
    if e.fault = .missing then .ok none
    else .error (.ofScan ("reading " ++ what) (some (.ofFile e)))

/-- The metadata of the component with the given stem, with the path and text of their source. -/
def loadMetadata (files : FileTree) (stem : String) :
    Except Problem (Metadata × String × String) := do
  let manifest := stem ++ SourceFile.manifest
  let source := stem ++ SourceFile.source
  match ← readOptional files "manifest" manifest with
  | some text =>
    match Manifest.read text with
    | .ok metadata => return (metadata, manifest, text)
    | .error p =>
      throw (.ofCode { category := .validation, code := "invalid_manifest"
                       message := manifest ++ ": " ++ p.message })
  | none =>
    match ← readOptional files "source" source with
    | none =>
      throw (.ofCode { category := .validation, code := "missing_metadata"
                       message := stem ++ SourceFile.template ++ " has neither " ++
                         Path.base source ++ " nor " ++ Path.base manifest })
    | some text =>
      let name := Tag.toName (String.ofList (replaceChar '_' ['-'] (Path.base stem).toList))
      match GoSource.read source text name with
      | .ok metadata => return (metadata, source, text)
      | .error p =>
        throw (.ofCode { category := .build, code := "missing_metadata"
                         message := "extracting metadata from " ++ source } (some p))

/-- The component whose template has the given path. -/
def loadComponent (files : FileTree) (path : String) : Except Problem Component := do
  let path ← (Path.confine path).mapError fun fault => .plain ("invalid path: " ++ fault.message)
  match dropSuffix? SourceFile.template path with
  | none =>
    throw (.ofCode { category := .validation, code := "scan_failed"
                     message := path ++ " is not a component template (*" ++ SourceFile.template ++
                       ")" })
  | some stem =>
    let unreadable (e : FileError) : Problem := .ofScan "reading template" (some (.ofFile e))
    let _ ← (files.look "stat" path).mapError unreadable
    let template ← (files.read path).mapError unreadable
    let (metadata, source, metadataText) ← loadMetadata files stem
    let stylePath := stem ++ SourceFile.style
    let style ← readOptional files "style" stylePath
    return { name := metadata.name, template, style := style.getD "", metadata := some metadata
             file := path, source, stylePath := if style.isSome then stylePath else ""
             hash := Checksum.ofTexts [template, metadataText, style.getD ""] }

/-- Registers the component whose template has the given path. -/
def file (files : FileTree) (reg : Registry) (path : String) : Except Problem Registry :=
  (loadComponent files path).map reg.register

/-- The templates below a directory that no pattern excludes, sorted. -/
def templates (files : FileTree) (patterns : List String) (root : String) :
    Except FileError (List String) :=
  (files.walk root).map fun entries =>
    sortStrings <| entries.filterMap fun
      | (_, .directory) => none
      | (path, .file _) =>
        if hasSuffix SourceFile.template path && !SourceFile.isExcluded patterns root path then
          some path
        else none

/-- Registers the components of several templates; gives also what went wrong with others. -/
def all (files : FileTree) (reg : Registry) : List String → Registry × List Problem
  | [] => (reg, [])
  | path :: paths =>
    match file files reg path with
    | .ok reg => all files reg paths
    | .error p =>
      let (reg, problems) := all files reg paths
      (reg, .context ("scanning " ++ path) p :: problems)

/-- The problem whose message comes first. -/
def firstByMessage (p : Problem) (ps : List Problem) : Problem :=
  ps.foldl (fun best q => if q.message < best.message then q else best) p

/-- Registers every component below a directory. -/
def directory (files : FileTree) (patterns : List String) (cancelled : Bool) (reg : Registry)
    (path : String) : Registry × Option Problem :=
  match Path.confine path with
  | .error fault => (reg, some (.plain ("invalid directory path: " ++ fault.message)))
  | .ok root =>
    match templates files patterns root with
    | .error e => (reg, some (.ofScan ("walking " ++ root) (some (.ofFile e))))
    | .ok [] => (reg, none)
    | .ok found =>
      if cancelled then (reg, some .cancelled)
      else
        match all files reg found with
        | (reg, []) => (reg, none)
        | (reg, p :: ps) =>
          let count := (p :: ps).length
          (reg, some (.context s!"scan completed with {count} errors" (firstByMessage p ps)))

/-- Registers every component below the directories, up to the first one with a problem. -/
def directories (files : FileTree) (patterns : List String) (cancelled : Bool) (reg : Registry) :
    List String → Registry × Option Problem
  | [] => (reg, none)
  | path :: paths =>
    match directory files patterns cancelled reg path with
    | (reg, some p) => (reg, some p)
    | (reg, none) => directories files patterns cancelled reg paths

end Scan

end ViewCompiler
