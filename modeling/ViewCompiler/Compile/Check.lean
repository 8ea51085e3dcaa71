import ViewCompiler.Compile.Basic
import ViewCompiler.Problem.Diagnostic

/-!
# Checking all components

A check compiles every registered component as a root of its own and collects everything that is
wrong. A component that leads to one whose template cannot be read is not laid out: what is wrong is
the other template, and that has been reported.
-/

namespace ViewCompiler

/-- A check of all components: what was found, what was read, and the registry with what the
components were found to use. -/
structure CheckRun where
  outcome : Except Problem Collector
  reading : Reading
  registry : Registry

/-- What is wrong with the style sheet of a component. -/
def Registry.styleProblem? (reg : Registry) (c : Component) : Option Problem :=
  if c.style = "" then none
  else match Style.encapsulate c.style c.tag 0 reg.tag? with
    | .error e => some (e.problem.inStyleFile c.stylePath)
    | .ok _ => none

/-- What is wrong with a component as a root. -/
def Registry.layoutProblem? (reg : Registry) (r : Reading) (c : Component) : Option Problem :=
  if !r.has c.name || (reg.usage.reachable c.name).any (!r.has ·) then none
  else match Tree.build (reg.library r) 0 (r.definition? c) >>= Tree.changes with
    | .error p => some p
    | .ok _ => none

/-- What checking comes to once the templates are read. -/
def Registry.checked (reg : Registry) (r : Reading) : CheckRun :=
  if r.failures.any (·.2.isAbort) then ⟨.error .abort, r, reg⟩
  else
    let unread := reg.components.foldl
      (fun found c => found.addProblem c.name c.file (r.failures.lookup c.name)) ({} : Collector)
    let reg := reg.recordReading r
    let found := reg.components.foldl
      (fun found c =>
        (found.addProblem c.name c.stylePath (reg.styleProblem? c)).addProblem c.name c.file
          (reg.layoutProblem? r c)) unread
    ⟨.ok found, r, reg⟩

/-- Checks every registered component. -/
def check (cache : Option ParseCache) (reg : Registry) (cancelled : Bool) : CheckRun :=
  let untouched : Reading := { cache }
  if cancelled && !reg.components.isEmpty then ⟨.error .cancelled, untouched, reg⟩
  else reg.checked (untouched.all reg.components)

end ViewCompiler
