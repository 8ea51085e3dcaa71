import ViewCompiler.ParseCache
import ViewCompiler.Problem
import ViewCompiler.Registry.Basic

/-!
# Reading all templates

Templates are read in the order of the component names. A template that is kept in the cache with
the digest of its component is not read again, and what is read is kept. Reading either stops at the
first template that cannot be read or goes on and remembers all of them.
-/

namespace ViewCompiler

open ViewCompiler.Template

/-- The run itself breaks off. -/
def Problem.isAbort : Problem → Bool
  | .abort => true
  | _ => false

/-- The templates read so far. -/
structure Reading where
  cache : Option ParseCache
  /-- The templates that could be read, by component name. -/
  templates : List (String × List Node) := []
  /-- The problems of those that could not, by component name. -/
  failures : List (String × Problem) := []
  /-- How many templates were read anew. -/
  parsed : Nat := 0
  /-- How many templates came from the cache. -/
  cached : Nat := 0

namespace Reading

/-- The template of a component, read anew. A problem names the file of the template. -/
def parseTemplate (c : Component) : Except Problem (List Node) :=
  match parse c.name c.template with
  | .ok nodes => .ok nodes
  | .error (.error e) => .error (.parse e.component c.file e.span e.fault.message)
  | .error .overrun => .error .abort

/-- What reading is given up with: that the run breaks off, or else what failed first. -/
def refusal? (r : Reading) : Option Problem :=
  if r.failures.any (·.2.isAbort) then some .abort else r.failures.head?.map (·.2)

/-- Whether a template could be read. -/
def has (r : Reading) (name : String) : Bool := r.templates.any (·.1 = name)

/-- The template kept for a component. -/
def lookup (r : Reading) (c : Component) : Option (List Node) × Option ParseCache :=
  match r.cache with
  | none => (none, none)
  | some cache => let (nodes, cache) := cache.get c.name c.hash; (nodes, some cache)

/-- Reads the template of one component. -/
def step (r : Reading) (c : Component) : Reading :=
  match r.lookup c with
  | (some nodes, cache) =>
    { r with cache, templates := r.templates ++ [(c.name, nodes)], cached := r.cached + 1 }
  | (none, cache) =>
    match parseTemplate c with
    | .ok nodes =>
      { r with
        cache := cache.map (·.set c.name c.hash nodes)
        templates := r.templates ++ [(c.name, nodes)]
        parsed := r.parsed + 1 }
    | .error p => { r with cache, failures := r.failures ++ [(c.name, p)] }

/-- Reads the templates of all components, up to the first failure. -/
def untilFailure (r : Reading) : List Component → Reading
  | [] => r
  | c :: cs =>
    let r := r.step c
    if r.failures.isEmpty then r.untilFailure cs else r

/-- Reads the templates of all components. -/
def all (r : Reading) (cs : List Component) : Reading := cs.foldl step r

end Reading

end ViewCompiler
