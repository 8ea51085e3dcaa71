import ViewCompiler.Proofs.Template.DirectiveSpec
import ViewCompiler.Template.Parser

/-!
# Templates before they are written

A `Markup` is what the author of a template has in mind: texts, interpolations, elements, components
and directives, without places. It is written in one canonical way (`Markup.write`): every tag is
closed, texts and literal attributes have their special characters as references, values are written
in expression form. `Markup.nodes` says which nodes it stands for, and `Canonical` which markup the
written form determines.
-/

namespace ViewCompiler.Template

open ViewCompiler.Text

/-- An attribute before it is written. -/
inductive MarkupAttribute where
  /-- `name="content"` -/
  | literal (name content : String)
  /-- `[name]="value"` -/
  | bound (name : String) (value : Value)
  /-- `[attr.name]="value"` -/
  | attr (name : String) (value : Value)
  /-- `(name)="method(arguments)"` -/
  | handler (name method : String) (arguments : List Argument)

/-- One node of a template before it is written. -/
inductive Markup where
  | text (content : String)
  | interpolation (value : Value)
  | element (name : String) (attributes : List MarkupAttribute) (children : List Markup)
  | component (name : String) (attributes : List MarkupAttribute)
  | directive (directive : Directive) (children : List Markup)

/-! ### Writing -/

/-- How a character is written in a text or in a literal attribute. -/
def encodeChar : Char → List Char
  | '&' => ['&', 'a', 'm', 'p', ';']
  | '<' => ['&', 'l', 't', ';']
  | '"' => ['&', 'q', 'u', 'o', 't', ';']
  | '\x7b' => ['&', '#', '1', '2', '3', ';']
  | c => [c]

/-- A text or a literal attribute with its special characters as references. -/
def encode (content : String) : List Char := content.toList.flatMap encodeChar

namespace MarkupAttribute

/-- The name with the brackets that say what is bound. -/
def writtenName : MarkupAttribute → List Char
  | literal name _ => name.toList
  | bound name _ => '[' :: (name.toList ++ [']'])
  | attr name _ => '[' :: ("attr.".toList ++ name.toList ++ [']'])
  | handler name _ _ => '(' :: (name.toList ++ [')'])

/-- The text between the quotes. -/
def writtenValue : MarkupAttribute → List Char
  | literal _ content => encode content
  | bound _ value | attr _ value => value.render.toList
  | handler _ method arguments => (Value.call method arguments).render.toList

/-- An attribute with the blank before it. -/
def write (a : MarkupAttribute) : List Char :=
  ' ' :: (a.writtenName ++ '=' :: '"' :: (a.writtenValue ++ ['"']))

end MarkupAttribute

/-- A tag from its opening angle bracket up to its end, which is still missing. -/
def writeTag (name : String) (attributes : List MarkupAttribute) : List Char :=
  '<' :: (name.toList ++ attributes.flatMap MarkupAttribute.write)

/-- A closing tag. -/
def writeClosing (name : String) : List Char := '<' :: '/' :: (name.toList ++ ['>'])

mutual

/-- The canonical text of one node. -/
def Markup.write : Markup → List Char
  | .text content => encode content
  | .interpolation value => openBraces ++ ' ' :: (value.render.toList ++ [' ', '\x7d', '\x7d'])
  | .element name attributes children =>
    writeTag name attributes ++ '>' ::
      if isVoidElement name then [] else writeAll children ++ writeClosing name
  | .component name attributes => writeTag name attributes ++ ['/', '>']
  | .directive d children =>
    '<' :: (d.name.toList ++ ' ' ::
      (d.render.toList ++ '>' :: (writeAll children ++ writeClosing d.name)))

/-- The canonical text of a forest. -/
def writeAll : List Markup → List Char
  | [] => []
  | m :: ms => m.write ++ writeAll ms

end

/-! ### What it stands for -/

/-- The binding that an attribute stands for, on an element or on a component. -/
def MarkupAttribute.binding (component : Bool) : MarkupAttribute → Binding
  | literal name content =>
    if component then { kind := .input, name, value := .text content, span := {} }
    else match documentProperties.lookup (lowercase name) with
      | some (property, true) =>
        { kind := .property, name := property, value := .literal "true", span := {} }
      | some (property, false) =>
        { kind := .property, name := property, value := .text content, span := {} }
      | none => { kind := .attr, name, value := .text content, span := {} }
  | bound name value =>
    let kind := if name.toList.contains '-' then .attr else if component then .input else .property
    { kind, name, value, span := {} }
  | attr name value => { kind := .attr, name, value, span := {} }
  | handler name method arguments =>
    { kind := if component then .output else .event, name, value := .call method arguments,
      span := {} }

mutual

/-- The nodes that markup stands for, without places; an empty text stands for none. -/
def Markup.nodes : Markup → List Node
  | .text content => if content = "" then [] else [.interpolation {} (.text content)]
  | .interpolation value => [.interpolation {} value]
  | .element name attributes children =>
    [.element {} name (attributes.map (MarkupAttribute.binding false)) (nodesAll children)]
  | .component name attributes =>
    [.component {} name (attributes.map (MarkupAttribute.binding true))]
  | .directive d children => [.directive {} d.render {} d (nodesAll children)]

/-- The nodes that a forest stands for. -/
def nodesAll : List Markup → List Node
  | [] => []
  | m :: ms => m.nodes ++ nodesAll ms

end

/-- A binding without its place. -/
def Binding.unplaced (b : Binding) : Binding := { b with span := {} }

mutual

/-- A node without places. -/
def Node.unplaced : Node → Node
  | .text _ content => .text {} content
  | .interpolation _ value => .interpolation {} value
  | .element _ name bindings children =>
    .element {} name (bindings.map Binding.unplaced) (unplacedAll children)
  | .component _ name bindings => .component {} name (bindings.map Binding.unplaced)
  | .directive _ spec _ d children => .directive {} spec {} d (unplacedAll children)

/-- A forest without places. -/
def unplacedAll : List Node → List Node
  | [] => []
  | n :: ns => n.unplaced :: unplacedAll ns

end

/-! ### Canonical markup -/

/-- A value that an expression can give, written without double quotes, with its string literals
closed and without two closing braces outside of them. -/
structure Value.Writable (payload : Bool) (v : Value) : Prop where
  read : ∃ source, readExpression payload source = .ok v
  closed : v.render.toList.foldl Quoting.next .outside = .outside
  unquoted : '"' ∉ v.render.toList
  unbraced : ∀ before after, v.render.toList = before ++ '\x7d' :: '\x7d' :: after →
    before.foldl Quoting.next .outside ≠ .outside

/-- Without closing braces and double quotes, a value only has to close its string literals. -/
theorem Value.Writable.of_notMem {payload : Bool} {v : Value} (source : List Char)
    (hread : readExpression payload source = .ok v)
    (hclosed : v.render.toList.foldl Quoting.next .outside = .outside)
    (hunquoted : '"' ∉ v.render.toList) (hbrace : '\x7d' ∉ v.render.toList) :
    v.Writable payload where
  read := ⟨source, hread⟩
  closed := hclosed
  unquoted := hunquoted
  unbraced := by
    intro before after heq
    exact absurd (heq ▸ List.mem_append_right before List.mem_cons_self) hbrace

/-- Letters, digits, hyphens and underscores. -/
def isAttributeNameChar (c : Char) : Bool := c.isAlphanum || c == '-' || c == '_'

/-- Letters, digits, hyphens and underscores, a letter first. -/
def isAttributeName (name : String) : Bool :=
  name.toList.head?.any Char.isAlpha && name.toList.all isAttributeNameChar

/-- The names of tags that are no directives. -/
def isTagName (name : String) : Bool :=
  name.toList.head?.any isNameStart && name.toList.all isNameChar && !hasPrefix "w:" name

/-- The attributes that are read as they are meant. -/
def MarkupAttribute.Canonical : MarkupAttribute → Prop
  | literal name _ => isAttributeName name = true
  | bound name value | attr name value => isAttributeName name = true ∧ value.Writable false
  | handler name method arguments =>
    isAttributeName name = true ∧ (Value.call method arguments).Writable true

namespace Markup

/-- Whether markup is an interpolation. -/
def isInterpolation : Markup → Bool
  | interpolation _ => true
  | text _ | element .. | component .. | directive .. => false

/-- No two texts stand side by side, and a text of white space stands beside an interpolation. -/
structure Spaced (ms : List Markup) : Prop where
  apart : ∀ before s t after, ms ≠ before ++ text s :: text t :: after
  beside : ∀ before content after, ms = before ++ text content :: after → content ≠ "" →
    content.toList.all isBlank = true →
    before.getLast?.any isInterpolation = true ∨ after.head?.any isInterpolation = true

theorem Spaced.of_forall_ne_text {ms : List Markup} (h : ∀ m ∈ ms, ∀ content, m ≠ text content) :
    Spaced ms where
  apart := by
    rintro before s t after rfl
    exact h _ (List.mem_append_right before List.mem_cons_self) s rfl
  beside := by
    rintro before content after rfl
    exact absurd rfl (h _ (List.mem_append_right before List.mem_cons_self) content)

/-- Markup that its written form determines. Elements and components are told apart by their names,
void elements have no content, and elements with raw content are left out. -/
inductive Canonical : Markup → Prop where
  | text (content : String) : Canonical (text content)
  | interpolation {value : Value} (hvalue : value.Writable false) : Canonical (interpolation value)
  | element {name : String} {attributes : List MarkupAttribute} {children : List Markup}
      (hname : isTagName name = true) (hkind : isComponentName name = false)
      (hraw : isRawTextElement name = false) (hvoid : isVoidElement name = true → children = [])
      (hattributes : ∀ a ∈ attributes, a.Canonical) (hspaced : Spaced children)
      (hchildren : ∀ m ∈ children, Canonical m) : Canonical (element name attributes children)
  | component {name : String} {attributes : List MarkupAttribute} (hname : isTagName name = true)
      (hkind : isComponentName name = true) (hattributes : ∀ a ∈ attributes, a.Canonical) :
      Canonical (component name attributes)
  | directive {d : Directive} {children : List Markup} (hd : d.Valid) (hspaced : Spaced children)
      (hchildren : ∀ m ∈ children, Canonical m) : Canonical (directive d children)

end Markup

end ViewCompiler.Template
