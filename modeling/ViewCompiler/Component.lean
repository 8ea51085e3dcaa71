import ViewCompiler.Metadata.Basic
import ViewCompiler.Registry.Tag

/-!
# Components

A component as it was found in the sources: its template and style sheet as text, its metadata, the
files they came from, and the components its template uses, once these have been recorded.
-/

namespace ViewCompiler

/-- A component as it was found in the sources. -/
structure Component where
  name : String
  /-- The tag under which the component is mounted. -/
  tag : String := ""
  template : String := ""
  style : String := ""
  metadata : Option Metadata := none
  /-- The file of the template. -/
  file : String := ""
  /-- The file of the metadata. -/
  source : String := ""
  /-- The file of the style sheet. -/
  stylePath : String := ""
  /-- A digest of all sources; empty when it is not known. -/
  hash : String := ""
  /-- The names of the components that the template uses, as recorded last. -/
  uses : List String := []
  deriving DecidableEq, Repr, Inhabited

namespace Component

/-- The component with the tag of its name, unless it has a tag of its own. -/
def withTag (c : Component) : Component :=
  if c.tag = "" then { c with tag := Tag.ofName c.name } else c

/-- Whether one of the files of the component stands at the path. -/
def livesAt (c : Component) (path : String) : Bool :=
  c.file = path || c.source = path || c.stylePath = path

end Component

end ViewCompiler
