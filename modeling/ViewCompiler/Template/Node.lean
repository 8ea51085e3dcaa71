import ViewCompiler.Template.Binding

/-!
# Template nodes

A parsed template is a forest of nodes: raw text, interpolations, elements, references to other
components, and the two directives that mount their content conditionally or once per item. Each
variant carries what it alone has, so that text has exactly one value, a directive exactly one
path, and a component reference no children.
-/

namespace ViewCompiler.Template

open ViewCompiler.Text

/-- The variants of nodes. -/
inductive NodeKind where
  | text | interpolation | element | component | conditional | repeating
  deriving DecidableEq, Repr, Inhabited

namespace NodeKind

/-- The name of a kind. -/
def name : NodeKind → String
  | text => "text"
  | interpolation => "interpolation"
  | element => "element"
  | component => "component"
  | conditional => "conditional"
  | repeating => "repeating"

instance : Variant NodeKind where
  all := [text, interpolation, element, component, conditional, repeating]
  name := name
  unknown n := s!"NodeKind({n})"

/-- Whether nodes of this kind are markup structure rather than text. -/
def isStructural : NodeKind → Bool
  | element | component | conditional | repeating => true
  | text | interpolation => false

/-- Whether a scope is mounted at nodes of this kind. -/
def isScope : NodeKind → Bool
  | component | conditional | repeating => true
  | text | interpolation | element => false

/-- The number of places a node takes in the document of its scope: a directive needs an opening
and a closing marker. -/
def slots : NodeKind → Nat
  | conditional | repeating => 2
  | text | interpolation | element | component => 1

end NodeKind

/-- The variables, the source and the key of a repeater. -/
structure Loop where
  item : String
  /-- The index variable; empty when there is none. -/
  index : String := ""
  source : Path
  /-- The key path relative to the item; empty when items are matched by position. -/
  key : List String := []
  deriving DecidableEq, Repr, Inhabited

/-- Whether a repeater introduces a name into its view. -/
def Loop.declares (l : Loop) (name : String) : Bool :=
  name != "" && (name == l.item || name == l.index)

/-- What a directive says, besides its content. -/
inductive Directive where
  /-- Mounts its content while the path is true, or false when `negated`. -/
  | conditional (negated : Bool) (path : Path)
  /-- Mounts its content once per item. -/
  | repeating (loop : Loop)
  deriving DecidableEq, Repr, Inhabited

namespace Directive

/-- The name under which a directive is written. -/
def name : Directive → String
  | conditional .. => "w:if"
  | repeating .. => "w:for"

/-- The kind of the nodes of a directive. -/
def nodeKind : Directive → NodeKind
  | conditional .. => .conditional
  | repeating .. => .repeating

/-- The kind of the one binding of a directive. -/
def bindingKind : Directive → BindingKind
  | conditional .. => .condition
  | repeating .. => .repeatSource

/-- The path a directive reads. -/
def path : Directive → Path
  | conditional _ p => p
  | repeating l => l.source

end Directive

/-- One node of a parsed template. -/
inductive Node where
  /-- The body of a raw text element. -/
  | text (span : Span) (content : String)
  /-- A piece of running text, constant or computed. -/
  | interpolation (span : Span) (value : Value)
  /-- An element with its children. -/
  | element (span : Span) (name : String) (bindings : List Binding) (children : List Node)
  /-- A reference to another component. -/
  | component (span : Span) (name : String) (bindings : List Binding)
  /-- A directive: its text as written, where that stands, and the content it governs. -/
  | directive (span : Span) (spec : String) (specSpan : Span) (directive : Directive)
      (children : List Node)
  deriving Repr, Inhabited

namespace Node

/-- The variant of a node. -/
def kind : Node → NodeKind
  | text .. => .text
  | interpolation .. => .interpolation
  | element .. => .element
  | component .. => .component
  | directive _ _ _ d _ => d.nodeKind

/-- Where a node stands in the template. -/
def span : Node → Span
  | text s _ | interpolation s _ | element s _ _ _ | component s _ _ | directive s _ _ _ _ => s

/-- The tag of an element or component, or the name of a directive. -/
def name : Node → String
  | text .. | interpolation .. => ""
  | element _ n _ _ | component _ n _ => n
  | directive _ _ _ d _ => d.name

/-- The content of a node. -/
def children : Node → List Node
  | element _ _ _ cs | directive _ _ _ _ cs => cs
  | text .. | interpolation .. | component .. => []

/-- The bindings of a node in source order. -/
def bindings : Node → List Binding
  | text s content => [{ kind := .text, value := .text content, span := s }]
  | interpolation s v => [{ kind := .interpolation, value := v, span := s }]
  | element _ _ bs _ | component _ _ bs => bs
  | directive _ _ s d _ => [{ kind := d.bindingKind, value := .access d.path, span := s }]

/-- The number of places a node takes in the document of its scope. -/
def slots (n : Node) : Nat := n.kind.slots

/-- The text of a directive as written, without blanks around it. -/
def spec : Node → String
  | directive _ s _ _ _ => s
  | _ => ""

/-- The value of a text or interpolation node. -/
def value? : Node → Option Value
  | text _ content => some (.text content)
  | interpolation _ v => some v
  | _ => none

/-- Whether a node is text known without looking any name up. -/
def isConstant (n : Node) : Bool := n.value?.any Value.isConstant

/-- Whether a node is running text that consists of white space. -/
def isBlankText : Node → Bool
  | interpolation _ (.text content) => content.toList.all isBlank
  | _ => false

/-- A node in one line, without its content. -/
def render (n : Node) : String :=
  match n with
  | text _ content => s!"text({(Value.text content).render})"
  | interpolation _ v => s!"interpolation({v.render})"
  | directive _ spec _ d _ => s!"<{d.name} {spec}>"
  | element _ name bs _ | component _ name bs =>
    if bs.isEmpty then s!"<{name}>" else s!"<{name} " ++ join " " (bs.map Binding.render) ++ ">"

/-- A node without its content. -/
def withChildren (n : Node) (children : List Node) : Node :=
  match n with
  | element s name bs _ => element s name bs children
  | directive s spec ss d _ => directive s spec ss d children
  | text .. | interpolation .. | component .. => n

end Node

/-! ### Whole forests -/

mutual

/-- A node and everything below it, in document order. -/
def Node.preorder : Node → List Node
  | .element s n bs cs => .element s n bs cs :: preorderForest cs
  | .directive s spec ss d cs => .directive s spec ss d cs :: preorderForest cs
  | .text s c => [.text s c]
  | .interpolation s v => [.interpolation s v]
  | .component s n bs => [.component s n bs]

/-- All nodes of a forest in document order. -/
def preorderForest : List Node → List Node
  | [] => []
  | n :: ns => n.preorder ++ preorderForest ns

end

mutual

/-- Drops the blank text between structural nodes in the content of a node. -/
def Node.prune : Node → Node
  | .element s n bs cs => .element s n bs (pruneFrom true cs)
  | .directive s spec ss d cs => .directive s spec ss d (pruneFrom true cs)
  | .text s c => .text s c
  | .interpolation s v => .interpolation s v
  | .component s n bs => .component s n bs

/-- Drops the blank text of a forest whose neighbours are all structural or absent. The flag
tells whether the node before is structural or absent. -/
def pruneFrom (structuralBefore : Bool) : List Node → List Node
  | [] => []
  | n :: ns =>
    let rest := pruneFrom n.kind.isStructural ns
    if n.isBlankText && structuralBefore && ns.head?.all (·.kind.isStructural) then rest
    else n.prune :: rest

end

/-- Drops blank text whose neighbours are all structural or absent, at every level. White space
next to text or an interpolation is kept. -/
def pruneWhitespace (nodes : List Node) : List Node := pruneFrom true nodes

end ViewCompiler.Template
