import ViewCompiler.Scope.Resolution

/-!
# Change maps

When a property changes, which scopes have to do what? The change map of a scope lists, for each of
its saved nodes, the values that may change and are written there; and for each child, the values
whose change has to be passed into it, with the reason:

* *forward*, because the scope lies on the way from the definition of the value to its consumer;
* *push*, because the scope is the component instance to which the definition belongs.

Loop variables live below the instance around their loop, which cannot observe them, so nothing is
pushed for them. Handlers are run, not read, and take no part.

The maps of a tree are filled value by value: each value that may change leaves its passes in the
maps of the scopes between its definition and its consumer, and passes of one value into one child
are merged.
-/

namespace ViewCompiler

open ViewCompiler.Text ViewCompiler.Template

/-- Why a value is passed into a child. -/
structure Reason where
  push : Bool
  forward : Bool
  deriving DecidableEq, Repr

namespace Reason

/-- The one reason of a scope to which the definition belongs. -/
def pushed : Reason := ⟨true, false⟩

/-- The one reason of a scope on the way to the consumer. -/
def forwarded : Reason := ⟨false, true⟩

/-- The reasons of both. -/
def union (a b : Reason) : Reason := ⟨a.push || b.push, a.forward || b.forward⟩

/-- Whether there is any reason at all. -/
def isSome (r : Reason) : Bool := r.push || r.forward

/-- The reasons, joined by a plus sign. -/
def text (r : Reason) : String :=
  match r.push, r.forward with
  | true, true => "push+forward"
  | true, false => "push"
  | false, true => "forward"
  | false, false => "none"

/-- The reasons encoded in the two lowest bits of a number. -/
def ofBits (n : Nat) : Reason := ⟨n.testBit 0, n.testBit 1⟩

end Reason

/-- One value in a tree: the scope that reads it, the number of the binding there, and the position
of the argument if it is one. No two values of a tree are the same occurrence. -/
structure Occurrence where
  consumer : Nat
  binding : Nat
  argument : Option Nat
  /-- The value in expression form. -/
  text : String
  deriving DecidableEq, Repr

/-- A binding of a scope with its number, and the index of the saved node it stands on when it does
not feed the scope from outside. -/
structure Read where
  number : Nat
  node : Option Nat
  binding : Binding
  deriving DecidableEq, Repr

namespace Placed

/-- The bindings a scope reads, numbered. -/
def reads (p : Placed) : List Read :=
  let own := p.scope.saved.flatMap fun s =>
    (s.node.bindings.filter (!·.kind.isSelf)).map fun b => (some s.index, b)
  let fed := p.frame.feeds.map fun b => (none, b)
  (own ++ fed).zipIdx.map fun ((node, b), n) => ⟨n, node, b⟩

/-- The occurrence of the value of a binding. -/
def occurrence (p : Placed) (r : Read) : Occurrence :=
  ⟨p.id, r.number, none, r.binding.value.render⟩

/-- Whether the value of a binding can never change. -/
def isConstant (p : Placed) (b : Binding) : Bool := (p.readingFrames b).valueConstant b.value

/-! ### Dependencies -/

/-- A value that may change, with the declaration it refers to. -/
structure Dependency where
  occurrence : Occurrence
  origin? : Option Frames.Origin

/-- The dependencies of the arguments of a call: the paths among them that may change. -/
def argumentDependencies (p : Placed) (r : Read) (fs : Frames) (arguments : List Argument) :
    List Dependency :=
  arguments.zipIdx.filterMap fun (a, i) =>
    match a with
    | .access path =>
      if fs.argumentConstant a then none
      else some ⟨⟨p.id, r.number, some i, a.render⟩, fs.resolve? path.root⟩
    | .literal _ | .payload => none

/-- The values that a binding depends on: its own value if that may change, and then also the
arguments that may change. -/
def dependencies (p : Placed) (r : Read) : List Dependency :=
  let fs := p.readingFrames r.binding
  if r.binding.kind.isHandler || fs.valueConstant r.binding.value then []
  else match r.binding.value with
    | .text _ | .literal _ => []
    | .access path => [⟨p.occurrence r, fs.resolve? path.root⟩]
    | .call method arguments =>
      ⟨p.occurrence r, fs.resolve? method⟩ :: p.argumentDependencies r fs arguments

end Placed

/-! ### The change map of a scope -/

/-- The values to be written to the saved node with the given index. -/
structure NodeUpdate where
  index : Nat
  values : List Occurrence
  deriving DecidableEq, Repr

/-- A value passed into a child, and why. -/
structure Trigger where
  value : Occurrence
  reason : Reason
  deriving DecidableEq, Repr

/-- The values passed into one child. -/
structure ChildUpdate where
  child : Nat
  triggers : List Trigger
  deriving DecidableEq, Repr

/-- One step of the update routine of a scope. -/
inductive Action where
  | node (index : Nat) (values : List Occurrence)
  | child (id : Nat) (values : List Occurrence)
  deriving DecidableEq, Repr

/-- What a scope has to do when values change, in the order in which it was found out. -/
structure ChangeMap where
  /-- The values written to saved nodes, with the index of the node. -/
  written : List (Nat × Occurrence) := []
  /-- The values passed into children, with the number of the child. -/
  passed : List (Nat × Trigger) := []
  deriving DecidableEq, Repr

/-- Adds a value for a child to those already passed. A value that is passed into the child already
gets one more reason. -/
def passInto (child : Nat) (value : Occurrence) (reason : Reason) :
    List (Nat × Trigger) → List (Nat × Trigger)
  | [] => [(child, ⟨value, reason⟩)]
  | (c, t) :: rest =>
    if c = child ∧ t.value = value then (c, ⟨value, t.reason.union reason⟩) :: rest
    else (c, t) :: passInto child value reason rest

namespace ChangeMap

/-- Adds a value for a saved node, unless it is written there already. -/
def write (m : ChangeMap) (index : Nat) (value : Occurrence) : ChangeMap :=
  if (index, value) ∈ m.written then m else { m with written := m.written ++ [(index, value)] }

/-- Adds a value for a child. -/
def pass (m : ChangeMap) (child : Nat) (value : Occurrence) (reason : Reason) : ChangeMap :=
  { m with passed := passInto child value reason m.passed }

/-- The values written to the saved node with the given index. -/
def valuesAt (m : ChangeMap) (index : Nat) : List Occurrence :=
  m.written.filterMap fun (i, v) => if i = index then some v else none

/-- The values passed into a child. -/
def triggersInto (m : ChangeMap) (child : Nat) : List Trigger :=
  m.passed.filterMap fun (c, t) => if c = child then some t else none

/-- The indexes of the saved nodes that are written, ascending. -/
def indexes (m : ChangeMap) : List Nat := (m.written.map (·.1)).eraseDups.mergeSort

/-- The updates of the saved nodes, by ascending index. -/
def nodeUpdates (m : ChangeMap) : List NodeUpdate := m.indexes.map fun i => ⟨i, m.valuesAt i⟩

/-- The updates of the given children that need any, in their order. -/
def childUpdates (m : ChangeMap) (children : List Nat) : List ChildUpdate :=
  children.filterMap fun c =>
    let triggers := m.triggersInto c
    if triggers.isEmpty then none else some ⟨c, triggers⟩

/-- The update routine of a scope with the given children: its nodes by ascending index, then its
children in order. -/
def actions (m : ChangeMap) (children : List Nat) : List Action :=
  m.nodeUpdates.map (fun u => .node u.index u.values) ++
    (m.childUpdates children).map fun u => .child u.child (u.triggers.map (·.value))

/-- Whether nothing ever has to be updated. -/
def isEmpty (m : ChangeMap) : Bool := m.written.isEmpty && m.passed.isEmpty

end ChangeMap

/-! ### Filling the maps -/

/-- The steps along a path of frames, each from a scope into the one inside it, from outside in. -/
def Frames.hops : Frames → List (Nat × Nat)
  | inner :: outer :: rest => hops (outer :: rest) ++ [(outer.id, inner.id)]
  | _ => []

/-- The instance to which a declaration belongs. -/
def Frames.Origin.boundary? (o : Frames.Origin) : Option Frame :=
  (Frames.boundary? (o.frame :: o.outer)).bind List.head?

/-- A value passed by a scope into one of its children. -/
structure Pass where
  scope : Nat
  child : Nat
  value : Occurrence
  reason : Reason
  deriving DecidableEq, Repr

namespace Placed

/-- The steps from the scope with the given number down to this one; none unless it lies around
this one. -/
def hopsFrom (p : Placed) (id : Nat) : List (Nat × Nat) :=
  Frames.hops ((Frames.pathTo? id p.frames).getD [])

/-- How a value on which a scope depends is passed down to it: the instance to which the definition
belongs pushes it, and every scope from the definition on forwards it. -/
def passes (p : Placed) (d : Dependency) : Except Problem (List Pass) :=
  match d.origin? with
  | none => .error (.violation s!"value {d.occurrence.text} has no definition factory")
  | some origin =>
    if p.frames.any (·.id = origin.frame.id) then
      -- The boundary cannot observe the variables of a loop inside it.
      let pushed :=
        if origin.frame.kind = .repeating then none
        else origin.boundary?.bind fun boundary => (p.hopsFrom boundary.id).head?
      .ok (pushed.toList.map (fun (scope, child) => ⟨scope, child, d.occurrence, .pushed⟩) ++
        (p.hopsFrom origin.frame.id).map fun (scope, child) =>
          ⟨scope, child, d.occurrence, .forwarded⟩)
    else .error (.unreachable d.occurrence.text origin.frame.text p.frame.text)

/-- The values of a scope that may change and are written to its own nodes. -/
def writes (p : Placed) : ChangeMap :=
  p.reads.foldl
    (fun m r =>
      match r.node with
      | some index =>
        if r.binding.kind.isNative && !p.isConstant r.binding then m.write index (p.occurrence r)
        else m
      | none => m)
    {}

end Placed

/-- The change maps of the scopes of a tree, by number. -/
structure ChangeMaps where
  maps : List (Nat × ChangeMap)
  deriving DecidableEq, Repr

namespace ChangeMaps

/-- The change map of the scope with the given number. -/
def of (ms : ChangeMaps) (id : Nat) : ChangeMap := (ms.maps.lookup id).getD {}

/-- Adds a pass to the map of its scope. -/
def add (ms : ChangeMaps) (x : Pass) : ChangeMaps :=
  ⟨ms.maps.map fun (id, m) => (id, if id = x.scope then m.pass x.child x.value x.reason else m)⟩

/-- Adds a value on which the scope `p` depends to the maps between its definition and `p`. -/
def propagate (p : Placed) (ms : ChangeMaps) (d : Placed.Dependency) :
    Except Problem ChangeMaps := do
  let passes ← p.passes d
  return passes.foldl add ms

end ChangeMaps

/-- The change maps of a tree. -/
def Tree.changes (t : Tree) : Except Problem ChangeMaps :=
  t.scopes.foldlM
    (fun ms p =>
      p.reads.foldlM (fun ms r => (p.dependencies r).foldlM (ChangeMaps.propagate p) ms) ms)
    ⟨t.scopes.map fun p => (p.id, p.writes)⟩

end ViewCompiler
