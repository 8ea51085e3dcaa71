import ViewCompiler.Calendar

/-!
# Build information

What the program knows about its own build: what was set when it was linked and, where that is
missing, what the build recorded about its module.
-/

namespace ViewCompiler

open ViewCompiler.Text

/-- What a build records about its module. -/
structure ModuleInfo where
  version : String := ""
  settings : List (String × String) := []
  deriving Repr

/-- What the program knows about its build. -/
structure BuildInfo where
  /-- The version set when linking; empty or `dev` for none. -/
  linkedVersion : String := "dev"
  /-- The commit set when linking; empty or `unknown` for none. -/
  linkedCommit : String := "unknown"
  /-- The time of the build set when linking; empty or `unknown` for none. -/
  linkedTime : String := "unknown"
  module? : Option ModuleInfo := none
  /-- The version of the tools that built the program. -/
  toolchain : String
  platform : String
  deriving Repr

namespace BuildInfo

/-- A recorded setting of the build; empty when there is none. -/
def setting (b : BuildInfo) (name : String) : String :=
  (b.module?.bind (·.settings.lookup name)).getD ""

/-- The first seven bytes of a commit. -/
def abbreviated (commit : String) : String := String.ofList (takeBytes 7 commit.toList)

/-- Whether a commit is long enough to be abbreviated. -/
def isLong (commit : String) : Bool := commit.utf8ByteSize ≥ 7

/-- The version of the program. -/
def version (b : BuildInfo) : String :=
  if b.linkedVersion ≠ "" && b.linkedVersion ≠ "dev" then b.linkedVersion
  else
    let recorded := (b.module?.map (·.version)).getD ""
    if recorded ≠ "(devel)" && recorded ≠ "" then recorded
    else if isLong (b.setting "vcs.revision") then "dev-" ++ abbreviated (b.setting "vcs.revision")
    else "dev"

/-- The commit that was built. -/
def commit (b : BuildInfo) : String :=
  if b.linkedCommit ≠ "" && b.linkedCommit ≠ "unknown" then b.linkedCommit
  else if b.setting "vcs.revision" ≠ "" then b.setting "vcs.revision"
  else "unknown"

/-- Whether a version belongs to a build that is no release. -/
def isDevelopment (version : String) : Bool := version = "dev" || hasPrefix "dev-" version

/-- Whether this is a release. -/
def isRelease (b : BuildInfo) : Bool := !isDevelopment b.version

/-- Whether the sources had changes that were not committed. -/
def isDirty (b : BuildInfo) : Bool := b.setting "vcs.modified" = "true"

/-- When the program was built; the beginning of year 1 when that is not known. -/
def builtAt (b : BuildInfo) : Calendar.Moment :=
  if b.linkedTime = "" || b.linkedTime = "unknown" then {}
  else (Calendar.Moment.read? b.linkedTime).getD {}

/-- The version and the commit in short. -/
def short (b : BuildInfo) : String :=
  if b.commit ≠ "unknown" && isLong b.commit then
    if isDevelopment b.version then "dev-" ++ abbreviated b.commit
    else b.version ++ " (" ++ abbreviated b.commit ++ ")"
  else b.version

/-- All that is known about the build, a line for each part. -/
def detailed (b : BuildInfo) : String :=
  let commit :=
    if b.commit = "unknown" then []
    else ["Commit: " ++ b.commit ++ if b.isDirty then " (dirty)" else ""]
  let built := if b.builtAt.isZero then [] else ["Built: " ++ b.builtAt.text]
  join "\n" (["Version: " ++ b.version] ++ commit ++ built ++
    ["Go: " ++ b.toolchain, "Platform: " ++ b.platform])

end BuildInfo

end ViewCompiler
