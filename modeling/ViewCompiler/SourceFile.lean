import ViewCompiler.Glob

/-!
# Source files

A component lives in files that share a stem: `name.w.html` is its template, `name.meta.yaml` or
`name.go` its metadata, and `name.css` its style sheet. The template stands for the whole component.
The predicates below tell which files belong to components and which ones are passed over.
-/

namespace ViewCompiler.SourceFile

open ViewCompiler.Text

/-- The ending of a template. -/
def template : String := ".w.html"

/-- The ending of a manifest. -/
def manifest : String := ".meta.yaml"

/-- The ending of a style sheet. -/
def style : String := ".css"

/-- The ending of a Go source. -/
def source : String := ".go"

/-- The template of the component that a file belongs to. Tests in Go belong to none. -/
def templateFor? (path : String) : Option String :=
  match [template, manifest, style].findSome? (dropSuffix? · path) with
  | some stem => some (stem ++ template)
  | none =>
      if hasSuffix "_test.go" path then none else (dropSuffix? source path).map (· ++ template)

/-! ### Kinds of files -/

/-- Whether a file has one of the endings that components are made of. -/
def ofComponent (path : String) : Bool := [template, manifest, style, source].any (hasSuffix · path)

/-- Whether a file is a Go source. -/
def isGo (path : String) : Bool := Path.extension path = source

/-- Whether a file is not a test. -/
def isNoTest (path : String) : Bool :=
  let name := Path.base path
  !matchesPattern "*_test.go" name && !matchesPattern "*_test.w.html" name

/-- Whether a file lies in no directory of the given name, as far as its path tells. -/
def isOutside (directory path : String) : Bool :=
  !hasPrefix (directory ++ "/") path && !contains ("/" ++ directory ++ "/") path

/-- Whether a file is neither hidden nor a backup of an editor. -/
def isVisible (path : String) : Bool :=
  let name := Path.base path
  !hasPrefix "." name && !hasSuffix "~" name

/-! ### Excluded files -/

/-- Whether none of the patterns matches the name of a file. -/
def isIncluded (patterns : List String) (path : String) : Bool :=
  !patterns.any fun p => matchesPattern p (Path.base path)

/-- Whether one of the patterns matches the name of a file or its path below `root`. -/
def isExcluded (patterns : List String) (root path : String) : Bool :=
  let way := (Path.relative? root path).getD path
  patterns.any fun p => matchesPattern p (Path.base path) || matchesPattern p way

end ViewCompiler.SourceFile
