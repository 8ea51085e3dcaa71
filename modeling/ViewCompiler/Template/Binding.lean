import ViewCompiler.Template.Position
import ViewCompiler.Template.Value
import ViewCompiler.Text.Quoted
import ViewCompiler.Variant

/-!
# Bindings

A binding connects a node of a template to one value. Its kind says what the value is for. Three
questions are asked of a kind: whether it writes into the document of the scope that holds the
node (*native*), whether it feeds the scope mounted at the node rather than the one that holds it
(*self*), and whether its value runs in answer to an event instead of being read (*handler*).
-/

namespace ViewCompiler.Template

open ViewCompiler.Text

/-- What a bound value is for. -/
inductive BindingKind where
  | text | interpolation | attr | property | event | input | output | condition | repeatSource
  deriving DecidableEq, Repr, Inhabited

namespace BindingKind

/-- The name of a kind. -/
def name : BindingKind → String
  | text => "text"
  | interpolation => "interpolation"
  | attr => "attribute"
  | property => "property"
  | event => "event"
  | input => "input"
  | output => "output"
  | condition => "condition"
  | repeatSource => "repeat-source"

instance : Variant BindingKind where
  all := [text, interpolation, attr, property, event, input, output, condition, repeatSource]
  name := name
  unknown n := s!"BindingKind({n})"

/-- Whether the value is written into the document of the scope that holds the node. -/
def isNative : BindingKind → Bool
  | text | interpolation | attr | property => true
  | event | input | output | condition | repeatSource => false

/-- Whether the value feeds the scope mounted at the node. -/
def isSelf : BindingKind → Bool
  | input | output | condition | repeatSource => true
  | text | interpolation | attr | property | event => false

/-- Whether the value runs in answer to an event. -/
def isHandler : BindingKind → Bool
  | event | output => true
  | text | interpolation | attr | property | input | condition | repeatSource => false

/-- No kind both writes into the document and feeds a mounted scope. -/
theorem not_isSelf_of_isNative {k : BindingKind} (h : k.isNative = true) : k.isSelf = false := by
  cases k <;> simp_all [isNative, isSelf]

/-- No kind both writes into the document and runs in answer to an event. -/
theorem not_isHandler_of_isNative {k : BindingKind} (h : k.isNative = true) :
    k.isHandler = false := by
  cases k <;> simp_all [isNative, isHandler]

end BindingKind

/-- One value bound at a node. -/
structure Binding where
  kind : BindingKind
  /-- The attribute, property, event, input or output; empty for the other kinds. -/
  name : String := ""
  value : Value
  span : Span
  deriving DecidableEq, Repr, Inhabited

/-- A binding in template form. -/
def Binding.render (b : Binding) : String :=
  match b.kind with
  | .text | .interpolation => b.value.render
  | .attr => s!"[attr.{b.name}]=" ++ quote b.value.render
  | .property | .input => s!"[{b.name}]=" ++ quote b.value.render
  | .event | .output => s!"({b.name})=" ++ quote b.value.render
  | .condition => "w:if " ++ b.value.render
  | .repeatSource => "w:for " ++ b.value.render

end ViewCompiler.Template
