import ViewCompiler.Scope.Change

/-!
# Which scope saves which node

Every instance of a component works on its own copy of the template. The ledger of a tree lists the
nodes of all copies with the scope that saves each and, through its slot, the scope mounted at it. A
node must be saved once, and every mounted scope must have an anchor that is saved; the ledger is
kept while the scopes are entered one after the other, and breaking either promise ends the run.
-/

namespace ViewCompiler

open ViewCompiler.Template

/-- A node of a tree: the instance that works on its copy of the template, and the position of the
node in that copy, in document order. -/
structure Site where
  copy : Nat
  position : Nat
  deriving DecidableEq, Repr

/-- The positions of the nodes that a scope saves when its view starts at the given one. The content
of a directive is passed over, as the scope mounted there saves it. -/
def savedPositions (position : Nat) : List Node → List Nat
  | [] => []
  | .element _ _ _ inner :: rest =>
    position :: (savedPositions (position + 1) inner ++
      savedPositions (position + (1 + (preorderForest inner).length)) rest)
  | n :: rest => position :: savedPositions (position + n.preorder.length) rest
termination_by nodes => sizeOf nodes

/-- An entry of the ledger: a node, the scope that saves it, and the slot it is saved in. -/
structure Ledger.Entry where
  site : Site
  scope : Nat
  slot : Slot

/-- The nodes saved so far, the latest first. -/
abbrev Ledger := List Ledger.Entry

namespace Ledger

/-- The entry of a node. -/
def entry? (l : Ledger) (site : Site) : Option Entry := l.find? (·.site = site)

/-- Adds the entry of a node, which must not have one. -/
def assign (l : Ledger) (e : Entry) : Except Problem Ledger :=
  match l.entry? e.site with
  | some previous =>
    .error (.violation s!"node {e.slot.node.render} already belongs to {previous.scope}")
  | none => .ok (e :: l)

end Ledger

/-- The entries of the nodes that a scope saves when its view starts at the given site. -/
def Scope.entries (start : Site) (s : Scope) : List Ledger.Entry :=
  (savedPositions start.position s.view).zipWith (fun n slot => ⟨⟨start.copy, n⟩, s.frame.id, slot⟩)
    s.saved

/-- Where the view of a scope starts that is mounted at the given site: an instance has its own copy
of a template, and the content of a directive follows it. -/
def Scope.start (s : Scope) (anchor : Site) : Site :=
  if s.frame.kind = .component then ⟨s.frame.id, 0⟩ else ⟨anchor.copy, anchor.position + 1⟩

mutual

/-- Enters a scope whose view starts at the given site, and everything mounted in it. -/
def Scope.enter (start : Site) (l : Ledger) : Scope → Except Problem Ledger
  | .mk f a v saved n children => do
    let entries := Scope.entries start (.mk f a v saved n children)
    let l ← entries.foldlM Ledger.assign l
    enterAll (entries.filter (·.slot.node.kind.isScope)) l children

/-- Enters scopes that are mounted one by one at the given nodes. -/
def enterAll : List Ledger.Entry → Ledger → List Scope → Except Problem Ledger
  | _, l, [] => .ok l
  | [], _, c :: _ => .error (.violation s!"{c.frame.text} has no anchor")
  | anchor :: anchors, l, c :: cs => do
    let l ← c.enter (c.start anchor.site) l
    enterAll anchors l cs

end

/-- The ledger of a tree. -/
def Tree.ledger (t : Tree) : Except Problem Ledger := t.root.enter ⟨t.root.frame.id, 0⟩ []

namespace Ledger

/-- The scope that reads a binding of a scope: the one mounted at the node if the binding feeds it,
and the one that saves the node otherwise. -/
def consumer (l : Ledger) (p : Placed) (r : Read) : Except Problem Nat :=
  let found := match r.node with
    | some index => do
      let e ← l.find? fun e => e.scope = p.id ∧ e.slot.index = index
      let e ← l.entry? e.site
      return e.scope
    | none => do
      let e ← l.find? (·.slot.mounted = some p.id)
      let e ← l.entry? e.site
      e.slot.mounted
  match found with
  | some id => .ok id
  | none => .error (.violation s!"binding {r.binding.render} has no anchored factory")

end Ledger

end ViewCompiler
