import ViewCompiler.Graph
import ViewCompiler.Registry.Basic
import ViewCompiler.Template.Parser

/-!
# Usage

Which components use which. A template uses the registered components that its tags refer to; a tag
that refers to nothing is left to whoever lays out the tree. What is used is recorded with each
component, and the recorded names form a graph.
-/

namespace ViewCompiler

open ViewCompiler.Text ViewCompiler.Template

namespace Registry

/-- The names of the registered components that a parsed template refers to, sorted. -/
def usedIn (r : Registry) (nodes : List Node) : List String :=
  sortedSet <| (preorderForest nodes).filterMap fun
    | .component _ name _ => (r.lookup? name).map (·.name)
    | _ => none

/-- Records what a registered component uses. -/
def recordUses (r : Registry) (name : String) (uses : List String) : Registry :=
  { r with components := r.components.map fun c => if c.name = name then { c with uses } else c }

/-- What each component uses, as recorded. -/
def usage (r : Registry) : Graph := ⟨r.components.map fun c => (c.name, c.uses)⟩

/-- The components that directly use the given one, sorted. -/
def dependents (r : Registry) (name : String) : List Component :=
  r.components.filter (·.uses.contains name)

/-- What the template of a component uses. -/
def analyze (r : Registry) (c : Component) : Except Problem (List String) :=
  match parse c.name c.template with
  | .ok nodes => .ok (r.usedIn nodes)
  | .error e => .error (.context s!"failed to parse template of {c.name}" (.ofRejection e))

/-- Records anew what every component uses. A template that cannot be read uses nothing; the first
of them is reported. -/
def refreshUses (r : Registry) : Option Problem × Registry :=
  let found := r.components.map fun c => (c.name, r.analyze c)
  (found.findSome? fun | (_, .error p) => some p | _ => none,
   found.foldl (fun r (name, uses) => r.recordUses name (uses.toOption.getD [])) r)

/-- Every component after those it uses. -/
def buildOrder (r : Registry) : Except Problem (List String) :=
  r.usage.topologicalOrder.mapError fun cycle =>
    .plain ("circular dependency: [" ++ join " " cycle ++ "]")

end Registry

end ViewCompiler
