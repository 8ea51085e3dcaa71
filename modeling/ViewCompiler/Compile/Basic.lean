import ViewCompiler.Compile.Reading
import ViewCompiler.Registry.Usage
import ViewCompiler.Scope.Change
import ViewCompiler.Style.Scoped

/-!
# Compiling a root component

Compiling reads every registered template, records what each one uses, refuses a root that leads to
itself, lays out the scope tree of the root, fills its change maps, and confines the style sheets of
the components that occur in it. The numbers of the style sheets go on where those of the scopes
end, in the order of the component names.
-/

namespace ViewCompiler

open ViewCompiler.Text ViewCompiler.Template

/-- The style sheet of a component that occurs in a tree, confined to it. -/
structure ScopedStyle where
  component : String
  tag : String
  id : Nat
  css : String
  deriving DecidableEq, Repr

/-- The attribute that marks the nodes a style sheet applies to. -/
def ScopedStyle.attributeName (s : ScopedStyle) : String := Style.attributeName s.id

/-- The result of compiling a root component. -/
structure Compilation where
  root : String
  tree : Tree
  changes : ChangeMaps
  styles : List ScopedStyle

/-- A run was stopped from outside. -/
def Problem.cancelled : Problem := .plain "context canceled"

/-- The problem with the file of a style sheet, where it names none. -/
def Problem.inStyleFile (path : String) : Problem → Problem
  | .coded detail cause =>
    .coded (if detail.file = "" then { detail with file := path } else detail) cause
  | .context note cause => .context note (cause.inStyleFile path)
  | p => p

/-! ### Definitions -/

/-- The definition of a component whose template has been read. -/
def Reading.definition? (r : Reading) (c : Component) : Option Definition :=
  (r.templates.lookup c.name).map fun template =>
    { name := c.name, template, metadata := c.metadata }

/-- The registered components whose templates could be read, by name or tag. -/
def Registry.library (reg : Registry) (r : Reading) : Library where
  find? tag := (reg.lookup? tag).bind r.definition?
  names := reg.names
  mem_names := by
    intro tag d h
    simp only [Option.bind_eq_some_iff] at h
    obtain ⟨c, hc, hd⟩ := h
    have hname : d.name = c.name := by
      simp only [Reading.definition?, Option.map_eq_some_iff] at hd
      obtain ⟨_, _, rfl⟩ := hd
      rfl
    have hmem : c ∈ reg.components := by
      have hget : ∀ n, reg.get? n = some c → c ∈ reg.components := fun n h =>
        List.mem_of_find?_eq_some h
      unfold Registry.lookup? at hc
      cases hg : reg.get? tag with
      | some c' =>
        simp only [hg, Option.some_or, Option.some.injEq] at hc
        exact hget tag (hc ▸ hg)
      | none =>
        simp only [hg, Option.none_or, Option.bind_eq_some_iff] at hc
        obtain ⟨n, _, hn⟩ := hc
        exact hget n hn
    rw [hname]
    exact List.mem_map_of_mem hmem

/-! ### Style sheets -/

/-- The names of the components that occur in a tree, sorted. -/
def Tree.componentNames (t : Tree) : List String :=
  sortedSet ((t.scopes.filter (·.frame.kind = .component)).map (·.frame.name))

/-- Confines the style sheets of the named components, with numbers from `id` on. -/
def Registry.scopedStyles (reg : Registry) (id : Nat) :
    List String → Except Problem (List ScopedStyle)
  | [] => .ok []
  | name :: names =>
    match reg.get? name with
    | none => reg.scopedStyles id names
    | some c =>
      if c.style = "" then reg.scopedStyles id names
      else
        match Style.encapsulate c.style c.tag id reg.tag? with
        | .error e =>
          .error (.context s!"encapsulating style of {name}" (e.problem.inStyleFile c.stylePath))
        | .ok css => (⟨name, c.tag, id, css⟩ :: ·) <$> reg.scopedStyles (id + 1) names

/-! ### Compiling -/

/-- Records what every component uses; a template that could not be read uses nothing. -/
def Registry.recordReading (reg : Registry) (r : Reading) : Registry :=
  reg.components.foldl
    (fun acc c => acc.recordUses c.name (reg.usedIn ((r.templates.lookup c.name).getD []))) reg

/-- Lays out the tree of a root whose template has been read, with its change maps, and confines its
style sheets. -/
def Registry.layOut (reg : Registry) (r : Reading) (root : Component) :
    Except Problem Compilation := do
  if let some cycle := reg.usage.cycleFrom? root.name then
    throw <| match Problem.recursive cycle with
      | .coded detail cause => .coded { detail with file := root.file, line := 0, column := 0 }
        cause
      | p => p
  let tree ← (Tree.build (reg.library r) 0 (r.definition? root)).mapError
    (.context s!"building {root.name}")
  let changes ← tree.changes.mapError (.context s!"computing diff of {root.name}")
  let styles ← reg.scopedStyles tree.nextId tree.componentNames
  return ⟨root.name, tree, changes, styles⟩

/-- A run of the compiler: its result, what was read, and the registry with what the components were
found to use. -/
structure CompileRun where
  outcome : Except Problem Compilation
  reading : Reading
  registry : Registry
  /-- Whether every template could be read. -/
  complete : Bool

/-- What compiling a root comes to once the templates are read. -/
def Registry.concluded (reg : Registry) (root : Component) (r : Reading) : CompileRun :=
  match r.refusal? with
  | some p => ⟨.error p, r, reg, false⟩
  | none =>
    let reg := reg.recordReading r
    ⟨reg.layOut r root, r, reg, true⟩

/-- Compiles the component with the given name or tag. A run that is cancelled beforehand still
looks the root up. -/
def compile (cache : Option ParseCache) (reg : Registry) (root : String) (cancelled : Bool) :
    CompileRun :=
  let untouched : Reading := { cache }
  match reg.lookup? root with
  | none => ⟨.error (.unknownComponent root), untouched, reg, false⟩
  | some c =>
    if cancelled then ⟨.error .cancelled, untouched, reg, false⟩
    else reg.concluded c (untouched.untilFailure reg.components)

end ViewCompiler
