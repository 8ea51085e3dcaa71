import Mathlib.Logic.Relation
import ViewCompiler.Compile.Check

/-!
# Reading with several workers

`Reading.untilFailure` and `Reading.all` read one template after the other, as a compiler with one
worker does. A compiler may have more. The components then wait in the order of their names;
whenever fewer workers are busy than there may be, the next component is handed to a worker. What
the workers share is the `Reading`: the cache and what has come back so far. A worker does with its
component, one step at a time and with the steps of the other workers between them:

* it looks whether reading has been given up meanwhile, and if so drops the component;
* it asks the cache;
* if the cache has nothing, it reads the template, and keeps what it has read in the cache;
* it comes back with the template or with a problem.

Each of these steps takes effect at once, since the cache and the results are both behind a lock of
their own. Reading up to the first failure is given up as soon as the first worker has come back
with a problem; workers that have begun by then still finish, and a problem of theirs changes
nothing any more unless the run itself breaks off.

`Crew.Step` says what can happen next, and `Reads` what a reading can come to, together with the
order in which the workers came back. `Compiles` and `Checks` are what compiling and checking can
come to. A run that is stopped from outside while the workers read is not described.
-/

namespace ViewCompiler

open ViewCompiler.Template

/-! ### Workers -/

/-- What a worker comes back with: a template and whether the cache had it, or a problem. -/
abbrev Result : Type := Except Problem (List Node × Bool)

/-- How far a worker is with the template of a component. -/
inductive Stage where
  /-- The component has been handed to the worker. -/
  | taken
  /-- The worker has seen that reading goes on. -/
  | begun
  /-- The cache had nothing. -/
  | missed
  | finished (result : Result)

/-- Workers that read the templates of components. -/
structure Crew where
  /-- What they share. -/
  reading : Reading
  /-- The components that no worker has been handed yet. -/
  waiting : List Component
  busy : List (Component × Stage) := []
  /-- The names of the components that workers have come back with, in that order. -/
  back : List String := []

namespace Reading

/-- Asks the cache for the template of a component. -/
def look (r : Reading) (c : Component) : Reading × Stage :=
  match r.lookup c with
  | (some nodes, cache) => ({ r with cache }, .finished (.ok (nodes, true)))
  | (none, cache) => ({ r with cache }, .missed)

/-- Reads the template of a component anew, and keeps it. -/
def parseAnew (r : Reading) (c : Component) : Reading × Stage :=
  match parseTemplate c with
  | .ok nodes =>
    ({ r with cache := r.cache.map (·.set c.name c.hash nodes) }, .finished (.ok (nodes, false)))
  | .error p => (r, .finished (.error p))

/-- Adds what a worker comes back with. -/
def tell (r : Reading) (c : Component) : Result → Reading
  | .ok (nodes, true) =>
    { r with templates := r.templates ++ [(c.name, nodes)], cached := r.cached + 1 }
  | .ok (nodes, false) =>
    { r with templates := r.templates ++ [(c.name, nodes)], parsed := r.parsed + 1 }
  | .error p => { r with failures := r.failures ++ [(c.name, p)] }

/-- Whether reading up to the first failure has been given up. -/
def givenUp (r : Reading) (failFast : Bool) : Bool := failFast && !r.failures.isEmpty

end Reading

/-- What can happen next among the workers. -/
inductive Crew.Step (workers : Nat) (failFast : Bool) : Crew → Crew → Prop
  | take {r c cs busy back} (h : busy.length < workers) :
      Step workers failFast ⟨r, c :: cs, busy, back⟩ ⟨r, cs, busy ++ [(c, .taken)], back⟩
  | drop {r cs before c after back} (h : r.givenUp failFast = true) :
      Step workers failFast ⟨r, cs, before ++ (c, .taken) :: after, back⟩
        ⟨r, cs, before ++ after, back⟩
  | begin {r cs before c after back} (h : r.givenUp failFast = false) :
      Step workers failFast ⟨r, cs, before ++ (c, .taken) :: after, back⟩
        ⟨r, cs, before ++ (c, .begun) :: after, back⟩
  | look {r cs before c after back} :
      Step workers failFast ⟨r, cs, before ++ (c, .begun) :: after, back⟩
        ⟨(r.look c).1, cs, before ++ (c, (r.look c).2) :: after, back⟩
  | parse {r cs before c after back} :
      Step workers failFast ⟨r, cs, before ++ (c, .missed) :: after, back⟩
        ⟨(r.parseAnew c).1, cs, before ++ (c, (r.parseAnew c).2) :: after, back⟩
  | come {r cs before c result after back} :
      Step workers failFast ⟨r, cs, before ++ (c, .finished result) :: after, back⟩
        ⟨r.tell c result, cs, before ++ after, back ++ [c.name]⟩

/-- What reading the templates of some components can come to, where the workers come back in the
given order. -/
def Reads (workers : Nat) (failFast : Bool) (cache : Option ParseCache) (cs : List Component)
    (order : List String) (r : Reading) : Prop :=
  Relation.ReflTransGen (Crew.Step workers failFast) { reading := { cache }, waiting := cs }
    { reading := r, waiting := [], back := order }

/-! ### Runs -/

/-- What compiling a component can come to, where the workers come back in the given order. -/
def Compiles (workers : Nat) (cache : Option ParseCache) (reg : Registry) (root : String)
    (cancelled : Bool) (order : List String) (run : CompileRun) : Prop :=
  match reg.lookup? root with
  | none => order = [] ∧ run = ⟨.error (.unknownComponent root), { cache }, reg, false⟩
  | some c =>
    if cancelled then order = [] ∧ run = ⟨.error .cancelled, { cache }, reg, false⟩
    else ∃ r, Reads workers true cache reg.components order r ∧ run = reg.concluded c r

/-- What checking all components can come to, where the workers come back in the given order. -/
def Checks (workers : Nat) (cache : Option ParseCache) (reg : Registry) (cancelled : Bool)
    (order : List String) (run : CheckRun) : Prop :=
  if cancelled && !reg.components.isEmpty then
    order = [] ∧ run = ⟨.error .cancelled, { cache }, reg⟩
  else ∃ r, Reads workers false cache reg.components order r ∧ run = reg.checked r

end ViewCompiler
