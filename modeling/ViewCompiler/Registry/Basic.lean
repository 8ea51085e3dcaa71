import ViewCompiler.Component
import ViewCompiler.Problem
import ViewCompiler.Variant

/-!
# The registry

The components that are currently known, by name, with an index from tags to names. Whoever watches
the registry is told of every change; a watcher that does not keep up loses the changes that do not
fit into its queue.
-/

namespace ViewCompiler

open ViewCompiler.Text

/-! ### Changes -/

/-- What can happen to a name in the registry. -/
inductive ChangeKind where
  | added | updated | removed
  deriving DecidableEq, Repr

namespace ChangeKind

/-- The name of a change. -/
def name : ChangeKind → String
  | added => "added"
  | updated => "updated"
  | removed => "removed"

instance : Variant ChangeKind where
  all := [added, updated, removed]
  name := name
  unknown _ := "unknown"

end ChangeKind

/-- A change of the registry. -/
structure RegistryChange where
  kind : ChangeKind
  name : String
  deriving DecidableEq, Repr

/-- A change in words. -/
def RegistryChange.text (e : RegistryChange) : String := s!"{e.kind.name} {e.name}"

/-- Someone who is told of changes, with those not yet taken. -/
structure Watcher where
  pending : List RegistryChange := []
  /-- Cleared when the watcher leaves. -/
  listening : Bool := true
  deriving DecidableEq, Repr

namespace Watcher

/-- The number of changes that may wait for a watcher. -/
def capacity : Nat := 100

/-- Tells a watcher of a change, if it still listens and has room for it. -/
def tell (w : Watcher) (e : RegistryChange) : Watcher :=
  if w.listening && w.pending.length < capacity then { w with pending := w.pending ++ [e] } else w

end Watcher

/-! ### Registries -/

/-- The components that are currently known. -/
structure Registry where
  /-- The components, sorted by name. -/
  components : List Component := []
  /-- The name that each tag stands for. -/
  tags : List (String × String) := []
  /-- Everyone who ever watched, the earliest first. -/
  watchers : List Watcher := []
  deriving Repr

namespace Registry

/-- Puts a component in its place among components sorted by name, in the place of another one of
that name if there is any. -/
def place (c : Component) : List Component → List Component
  | [] => [c]
  | d :: ds =>
    if c.name < d.name then c :: d :: ds
    else if c.name = d.name then c :: ds
    else d :: place c ds

/-- The component with the given name. -/
def get? (r : Registry) (name : String) : Option Component := r.components.find? (·.name = name)

/-- The component that a template refers to by name or, failing that, by tag. An entry of the index
that no component stands behind is taken for no answer. Whatever happens to a registry, it has no
such entry (`indexSound_ofHistory`, `exists_get?_of_lookup_tags`). -/
def lookup? (r : Registry) (nameOrTag : String) : Option Component :=
  (r.get? nameOrTag).or ((r.tags.lookup nameOrTag).bind r.get?)

/-- The tag of the component with the given name. -/
def tag? (r : Registry) (name : String) : Option String := (r.get? name).map (·.tag)

/-- The names of all components, sorted. -/
def names (r : Registry) : List String := r.components.map (·.name)

/-- The number of components. -/
def size (r : Registry) : Nat := r.components.length

/-- Tells all watchers of a change. -/
def announce (r : Registry) (kind : ChangeKind) (name : String) : Registry :=
  { r with watchers := r.watchers.map (·.tell ⟨kind, name⟩) }

/-- Frees a tag, whoever it stands for. -/
def releaseTag (r : Registry) (tag : String) : Registry :=
  { r with tags := r.tags.filter (·.1 ≠ tag) }

/-- Adds a component, or replaces the one of that name. Its tag then stands for it, and the tag of
the one it replaces is freed. -/
def register (r : Registry) (component : Component) : Registry :=
  let c := component.withTag
  let old := r.get? c.name
  let r := old.elim r fun o => r.releaseTag o.tag
  let r := r.releaseTag c.tag
  { r with components := place c r.components, tags := (c.tag, c.name) :: r.tags }.announce
    (if old.isSome then .updated else .added) c.name

/-- Removes the component with the given name and frees its tag. -/
def remove (r : Registry) (name : String) : Registry :=
  match r.get? name with
  | none => r
  | some c =>
    ({ r with components := r.components.filter (·.name ≠ name) }.releaseTag c.tag).announce
      .removed name

/-- The names of the components that have a file at the path. -/
def namesAt (r : Registry) (path : String) : List String :=
  (r.components.filter (·.livesAt path)).map (·.name)

/-- Removes every component that has a file at the path; gives their names. -/
def removeAt (r : Registry) (path : String) : List String × Registry :=
  (r.namesAt path, (r.namesAt path).foldl remove r)

/-! ### Watching -/

/-- Adds a watcher. -/
def watch (r : Registry) : Registry := { r with watchers := r.watchers ++ [{}] }

/-- Lets the watcher with the given number leave; what it has not taken yet is kept for it. -/
def unwatch (r : Registry) (number : Nat) : Registry :=
  { r with watchers := r.watchers.modify number fun w => { w with listening := false } }

/-- Takes everything that waits for the watchers. -/
def drain (r : Registry) : List Watcher × Registry :=
  (r.watchers, { r with watchers := r.watchers.map fun w => { w with pending := [] } })

end Registry

end ViewCompiler
