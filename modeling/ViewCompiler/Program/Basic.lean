import ViewCompiler.Compile.Basic

/-!
# Programs

A program is a compilation as code emitters see it: scopes, nodes, bindings and updates as plain
data, in which scopes are referred to by number, nodes by index and values by their text.
-/

namespace ViewCompiler

open ViewCompiler.Template

namespace Program

/-- A bound value that refers to nothing inside itself: an argument, or a value without its
arguments. -/
structure Operand where
  kind : String := ""
  text : String := ""
  constant : Bool := false
  /-- What a path or call refers to. -/
  refKind : String := ""
  /-- The number of the scope that declares it. -/
  definition : Option Int := none
  /-- The numbers of the scopes from the consumer out to that scope. -/
  access : List Int := []
  deriving DecidableEq, Repr, Inhabited

/-- A bound value. -/
inductive Value where
  | mk (operand : Operand) (arguments : List Value)
  deriving Repr, Inhabited

/-- A binding of a node. -/
structure Binding where
  kind : String := ""
  name : String := ""
  value : Value := ⟨{}, []⟩
  deriving Repr, Inhabited

/-- A saved node of a scope. -/
structure Node where
  index : Int := 0
  kind : String := ""
  name : String := ""
  slots : Int := 0
  bindings : List Binding := []
  deriving Repr, Inhabited

/-- The values written anew to a saved node. -/
structure NodeUpdate where
  index : Int := 0
  values : Option (List String) := none
  deriving DecidableEq, Repr, Inhabited

/-- A value that makes a child update, and why. -/
structure Trigger where
  value : String := ""
  reason : String := ""
  deriving DecidableEq, Repr, Inhabited

/-- The values that make a child update. -/
structure ChildUpdate where
  child : Int := 0
  triggers : Option (List Trigger) := none
  deriving DecidableEq, Repr, Inhabited

/-- One step of the update routine of a scope. -/
structure Action where
  kind : String := ""
  index : Option Int := none
  child : Option Int := none
  values : Option (List String) := none
  deriving DecidableEq, Repr, Inhabited

/-- A scope of the program. -/
structure Scope where
  id : Int := 0
  name : String := ""
  kind : String := ""
  parent : Option Int := none
  /-- The index of the node at which the scope is mounted; the root has none. -/
  anchor : Int := 0
  /-- The text of the directive that mounts the scope. -/
  spec : String := ""
  children : List Int := []
  slots : Int := 0
  /-- The bindings that feed the scope, read in its parent. -/
  selfBindings : List Binding := []
  nodes : List Node := []
  nodeUpdates : List NodeUpdate := []
  childUpdates : List ChildUpdate := []
  actions : List Action := []
  deriving Repr, Inhabited

/-- A confined style sheet. -/
structure Style where
  component : String := ""
  tag : String := ""
  attributeName : String := ""
  css : String := ""
  deriving DecidableEq, Repr, Inhabited

end Program

/-- A compilation as code emitters see it. A list that was never given differs from an empty one. -/
structure Program where
  root : String := ""
  scopes : Option (List Program.Scope) := none
  styles : List Program.Style := []
  deriving Repr, Inhabited

namespace Program

/-- The anchor of the root. -/
def noAnchor : Int := -1

/-- What a value or argument refers to, reached from the frames of its consumer. -/
def Operand.refer (o : Operand) (consumer : Frames) (reference : Option Reference) : Operand :=
  match reference with
  | none => o
  | some r =>
    { o with
      refKind := r.kind.name
      definition := some r.definition
      access := (consumer.accessTo r.definition).map Int.ofNat }

/-- An argument of a call, read in the given frames. -/
def ofArgument (fs : Frames) (a : Argument) : Operand :=
  let base : Operand := { text := a.render, constant := fs.argumentConstant a }
  match a with
  | .literal _ => { base with kind := "literal" }
  | .payload => { base with kind := "placeholder" }
  | .access _ => { base with kind := "property" }.refer fs (a.reference? fs)

/-- A value, read in the given frames. Text is shown as it is, without quotes. -/
def ofValue (fs : Frames) (v : Template.Value) : Value :=
  let base : Operand := { text := v.render, constant := fs.valueConstant v }
  match v with
  | .text content => ⟨{ base with kind := "constant", text := content }, []⟩
  | .literal _ => ⟨{ base with kind := "literal" }, []⟩
  | .access _ => ⟨{ base with kind := "property" }.refer fs (v.reference? fs), []⟩
  | .call _ arguments =>
    ⟨{ base with kind := "call" }.refer fs (v.reference? fs),
     arguments.map fun a => ⟨ofArgument fs a, []⟩⟩

/-- A binding, read in the given frames. -/
def ofBinding (fs : Frames) (b : Template.Binding) : Binding :=
  { kind := b.kind.name, name := b.name, value := ofValue fs b.value }

/-- A saved node. Directives have no name; the bindings that feed a mounted scope belong to that
scope. -/
def ofSlot (fs : Frames) (s : Slot) : Node :=
  { index := s.index
    kind := s.node.kind.name
    name := match s.node with
      | .element _ name _ _ | .component _ name _ => name
      | _ => ""
    slots := s.node.slots
    bindings := (s.node.bindings.filter (!·.kind.isSelf)).map (ofBinding fs) }

/-- The texts of values. -/
def texts (values : List Occurrence) : List String := values.map (·.text)

/-- One step of an update routine. -/
def ofAction : ViewCompiler.Action → Action
  | .node index values =>
      { kind := "update_node", index := some index, values := some (texts values) }
  | .child id values => { kind := "update_child", child := some id, values := some (texts values) }

/-- The index at which a scope is mounted in its parent. -/
def anchorOf (parent : Option Placed) (p : Placed) : Int :=
  match parent.bind fun q => q.scope.saved.find? (·.mounted = some p.id) with
  | some s => s.index
  | none => noAnchor

/-- A scope, given its change map and the scope that mounts it. -/
def ofPlaced (changes : ChangeMap) (parent : Option Placed) (p : Placed) : Scope :=
  let children := p.scope.children.map (·.frame.id)
  { id := p.id
    name := p.frame.name
    kind := p.frame.kind.name
    parent := p.parent?.map fun f => (f.id : Int)
    anchor := anchorOf parent p
    spec := p.scope.anchor.elim "" (·.spec)
    children := children.map Int.ofNat
    slots := p.scope.slots
    selfBindings := p.frame.feeds.map (ofBinding p.outer)
    nodes := p.scope.saved.map (ofSlot p.frames)
    nodeUpdates := changes.nodeUpdates.map fun u => ⟨u.index, some (texts u.values)⟩
    childUpdates := (changes.childUpdates children).map fun u =>
      ⟨u.child, some (u.triggers.map fun t => ⟨t.value.text, t.reason.text⟩)⟩
    actions := (changes.actions children).map ofAction }

/-- The program of a compilation. -/
def ofCompilation (c : Compilation) : Program :=
  let scopes := c.tree.scopes
  let parentOf (p : Placed) : Option Placed := p.parent?.bind fun f => scopes.find? (·.id = f.id)
  { root := c.root
    scopes := some (scopes.map fun p => ofPlaced (c.changes.of p.id) (parentOf p) p)
    styles := c.styles.map fun s => ⟨s.component, s.tag, s.attributeName, s.css⟩ }

end Program

end ViewCompiler
