import ViewCompiler.Document.Json
import ViewCompiler.Document.Yaml.Printer
import ViewCompiler.Registry.Basic
import ViewCompiler.Text.Columns

/-!
# Listings

The registered components as a table for people, or as a document for other programs.
-/

namespace ViewCompiler.Cli

open ViewCompiler.Text

/-- How the components are listed. -/
structure Listing where
  /-- Whether properties and methods are shown. -/
  members : Bool := false
  /-- Whether it is shown which components a component uses. -/
  uses : Bool := false
  deriving DecidableEq, Repr

/-- The number of blanks per level of YAML that is written for other programs. -/
def yamlStep : Nat := 4

/-- Writes a document in the named format. -/
def writeDocument (format : String) (d : Document) : String :=
  if format = "json" then Document.Json.render d else Document.Yaml.render yamlStep d

namespace Listing

/-- The properties of a component, where they are shown. -/
def properties (l : Listing) (c : Component) : List String :=
  if l.members then c.metadata.elim [] (·.properties) else []

/-- The methods of a component, where they are shown. -/
def methods (l : Listing) (c : Component) : List String :=
  if l.members then c.metadata.elim [] (·.methods.map (·.name)) else []

/-- The components that a component uses, where they are shown. -/
def used (l : Listing) (c : Component) : List String := if l.uses then c.uses else []

/-! ### Tables -/

/-- The headings of the columns. -/
def headings (l : Listing) : List String :=
  ["NAME", "TAG", "FILE"] ++ (if l.members then ["PROPERTIES", "METHODS"] else []) ++
    (if l.uses then ["DEPENDENCIES"] else [])

/-- The cells of a component. -/
def cells (l : Listing) (c : Component) : List String :=
  [c.name, c.tag, c.file] ++
    (if l.members then [join ", " (l.properties c), join ", " (l.methods c)] else []) ++
    (if l.uses then [join ", " (l.used c)] else [])

/-- Every component has a cell in every column. -/
theorem length_cells (l : Listing) (c : Component) :
    (l.cells c).length = l.headings.length := by
  cases hm : l.members <;> cases hu : l.uses <;> simp [cells, headings, hm, hu]

/-- The components as a table, with their number below it. -/
def table (l : Listing) (cs : List Component) : String :=
  let rule := l.headings.map fun h => String.ofList (List.replicate h.length '-')
  Columns.render (l.headings :: rule :: cs.map l.cells) ++ s!"\nTotal: {cs.length} components\n"

/-! ### Documents -/

/-- A component as a record; what is empty is left out. -/
def record (l : Listing) (c : Component) : Document :=
  .record <|
    [("name", .text c.name), ("tag", .text c.tag), ("file_path", .text c.file)] ++
      Document.textUnlessEmpty "metadata" c.source ++
        Document.textUnlessEmpty "style" c.stylePath ++
      Document.listUnlessEmpty "properties" ((l.properties c).map .text) ++
      Document.listUnlessEmpty "methods" ((l.methods c).map .text) ++
      Document.listUnlessEmpty "dependencies" ((l.used c).map .text)

/-- The components in the named format. -/
def render (l : Listing) (format : String) (cs : List Component) : String :=
  if cs.isEmpty then "No components found.\n"
  else if format = "json" || format = "yaml" then
    writeDocument format (.list (cs.map l.record))
  else l.table cs

end Listing

end ViewCompiler.Cli
