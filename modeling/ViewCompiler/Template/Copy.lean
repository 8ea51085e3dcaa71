import ViewCompiler.Template.Node

/-!
# Copies of templates

A component is mounted once for every place that mentions it, and each mounting gets a copy of its
template. A copy is built anew from the bindings and values up, so nothing that is later recorded
for a node of one copy is recorded for another.
-/

namespace ViewCompiler.Template

/-- A path with the segments of another. -/
def Path.copy (p : Path) : Path := { root := p.root, rest := p.rest }

/-- An argument built anew. -/
def Argument.copy : Argument → Argument
  | .literal source => .literal source
  | .access path => .access path.copy
  | .payload => .payload

/-- A value built anew. -/
def Value.copy : Value → Value
  | .text content => .text content
  | .literal source => .literal source
  | .access path => .access path.copy
  | .call method arguments => .call method (arguments.map Argument.copy)

/-- A binding built anew. -/
def Binding.copy (b : Binding) : Binding :=
  { kind := b.kind, name := b.name, value := b.value.copy, span := b.span }

/-- The variables, the source and the key of a repeater, built anew. -/
def Loop.copy (l : Loop) : Loop :=
  { item := l.item, index := l.index, source := l.source.copy, key := l.key }

/-- A directive built anew. -/
def Directive.copy : Directive → Directive
  | conditional negated path => conditional negated path.copy
  | repeating loop => repeating loop.copy

mutual

/-- A node built anew, with all its content. -/
def Node.copy : Node → Node
  | .text span content => .text span content
  | .interpolation span value => .interpolation span value.copy
  | .element span name bindings children =>
    .element span name (bindings.map Binding.copy) (copyForest children)
  | .component span name bindings => .component span name (bindings.map Binding.copy)
  | .directive span spec specSpan directive children =>
    .directive span spec specSpan directive.copy (copyForest children)

/-- A forest built anew. -/
def copyForest : List Node → List Node
  | [] => []
  | n :: ns => n.copy :: copyForest ns

end

end ViewCompiler.Template
