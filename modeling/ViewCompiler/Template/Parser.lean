import ViewCompiler.Template.AttributeBinding

/-!
# Reading templates

`parse` turns the text of a template into its forest of nodes. The tokens are folded over a stack of
tags whose content is still being read; a closing tag completes the innermost one. Attributes are
bound when their tag is complete, so a fault in the content of a tag is found before one in its
attributes. White space between structural nodes is dropped at the end.
-/

namespace ViewCompiler.Template

open ViewCompiler.Text

/-- A template that cannot be read: the component it belongs to, where, and what is wrong. -/
structure ParseError where
  component : String
  span : Span
  fault : Fault
  deriving DecidableEq, Repr

/-- Why a template has no forest. -/
inductive Rejection where
  | error (error : ParseError)
  /-- The search for the end of a raw text element left the template. -/
  | overrun
  deriving DecidableEq, Repr

/-! ### Completing a tag -/

/-- Wraps a complete node in the directive of a `[w:if]` or `[w:for]` attribute. -/
def wrapDirective (source : Source) (node : Node) (a : Attribute) : Except Failure Node :=
  let value := trim (a.value.getD "")
  let directive :=
    if a.name = "[w:for]" then (readRepeater value).map .repeating else readCondition value
  match directive with
  | .error e => .error (a.valueFailure (.directive e))
  | .ok directive =>
    .ok (.directive node.span value (source.span a.valueStart a.valueStop) directive [node])

/-- Completes an element or component, given its content and the offset just past it. -/
def finishTag (source : Source) (tag : Tag) (children : List Node) (stop : Nat) :
    Except Failure Node := do
  let component := isComponentName tag.name
  if component then
    match children.find? (!·.isBlankText) with
    | some child =>
      throw (.fault child.span.start.offset child.span.stop.offset (.componentContent tag.name))
    | none => pure ()
  let (bindings, directive) ← bindAttributes source component tag.name none tag.attributes
  let span := source.span tag.start stop
  let node :=
    if component then Node.component span tag.name bindings
    else Node.element span tag.name bindings children
  match directive with
  | none => return node
  | some a => wrapDirective source node a

/-- Completes a directive, given its content and the offset just past it. -/
def finishDirective (source : Source) (tag : DirectiveTag) (children : List Node) (stop : Nat) :
    Node :=
  .directive (source.span tag.start stop) tag.spec (source.span tag.specStart tag.specStop)
    tag.directive children

/-! ### Folding the tokens -/

/-- A tag whose content is being read. -/
inductive OpenTag where
  | tag (tag : Tag)
  | directive (tag : DirectiveTag)
  deriving Repr

namespace OpenTag

/-- The name that the closing tag has to repeat. -/
def name : OpenTag → String
  | tag t => t.name
  | directive d => d.directive.name

/-- The fault of a tag that is never closed. -/
def unclosed : OpenTag → Failure
  | tag t => .fault t.start t.stop (.unclosedTag t.name)
  | directive d => .fault d.start d.stop (.unclosedTag d.directive.name)

/-- Completes an open tag. -/
def finish (source : Source) (children : List Node) (stop : Nat) : OpenTag → Except Failure Node
  | tag t => finishTag source t children stop
  | directive d => .ok (finishDirective source d children stop)

end OpenTag

/-- An open tag and the complete nodes before it, last one first. -/
structure Frame where
  opened : OpenTag
  before : List Node
  deriving Repr

/-- The text node of a raw text element's body; an empty body has none. -/
def verbatimBody (source : Source) (start stop : Nat) (body : String) : List Node :=
  if stop = start then [] else [.text (source.span start stop) body]

/-- Folds tokens into a forest. `stack` holds the open tags, innermost first, and `nodes` the
complete nodes inside the innermost one, last one first. -/
def assemble (source : Source) (failure : Option Failure) :
    List Token → List Frame → List Node → Except Failure (List Node)
  | [], stack, nodes =>
    match failure, stack with
    | some e, _ => .error e
    | none, frame :: _ => .error frame.opened.unclosed
    | none, [] => .ok nodes.reverse
  | token :: tokens, stack, nodes =>
    match token with
    | .text start stop raw =>
      let node :=
        Node.interpolation (source.span start stop) (.text (CharacterReference.decode raw))
      assemble source failure tokens stack (node :: nodes)
    | .interpolation start stop value =>
      assemble source failure tokens stack (.interpolation (source.span start stop) value :: nodes)
    | .opening tag => assemble source failure tokens (⟨.tag tag, nodes⟩ :: stack) []
    | .leaf tag =>
      match finishTag source tag [] tag.stop with
      | .error e => .error e
      | .ok node => assemble source failure tokens stack (node :: nodes)
    | .verbatim tag bodyStart bodyStop body stop =>
      match finishTag source tag (verbatimBody source bodyStart bodyStop body) stop with
      | .error e => .error e
      | .ok node => assemble source failure tokens stack (node :: nodes)
    | .directive tag true =>
      assemble source failure tokens stack (finishDirective source tag [] tag.stop :: nodes)
    | .directive tag false => assemble source failure tokens (⟨.directive tag, nodes⟩ :: stack) []
    | .closing name start stop =>
      match stack with
      | [] => .error (.fault start stop (.unexpectedClosing name))
      | frame :: stack =>
        if name = frame.opened.name then
          match frame.opened.finish source nodes.reverse stop with
          | .error e => .error e
          | .ok node => assemble source failure tokens stack (node :: frame.before)
        else .error (.fault start stop (.mismatchedClosing name frame.opened.name))

/-! ### The reader -/

/-- Reads the template of a component. -/
def parse (component source : String) : Except Rejection (List Node) :=
  let text := source.toList
  let lines := Source.ofText text
  let scanned := scan text
  match assemble lines scanned.failure scanned.tokens [] [] with
  | .ok nodes => .ok (pruneWhitespace nodes)
  | .error (.fault start stop fault) => .error (.error ⟨component, lines.span start stop, fault⟩)
  | .error .overrun => .error .overrun

end ViewCompiler.Template
