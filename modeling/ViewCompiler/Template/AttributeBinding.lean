import ViewCompiler.Template.Token
import ViewCompiler.Text.CharacterReference

/-!
# From attributes to bindings

An attribute in square brackets binds an expression, one in round brackets a handler, and a plain
one a literal text. On an element, some plain attributes are applied as document properties, with
their own names; on a component every plain attribute is an input. A `[w:if]` or `[w:for]` attribute
binds nothing itself: it wraps the whole tag in a directive.
-/

namespace ViewCompiler.Template

open ViewCompiler.Text

/-- The document property that a plain attribute is applied to, and whether it is true whenever the
attribute is present. -/
def documentProperties : List (String × String × Bool) :=
  [("class", "className", false), ("for", "htmlFor", false), ("id", "id", false),
   ("value", "value", false), ("tabindex", "tabIndex", false), ("checked", "checked", true),
   ("disabled", "disabled", true), ("selected", "selected", true), ("hidden", "hidden", true),
   ("readonly", "readOnly", true)]

/-- Whether an attribute wraps its tag in a directive. -/
def Attribute.isDirective (a : Attribute) : Bool := a.name = "[w:if]" || a.name = "[w:for]"

/-- A fault of a whole attribute. -/
def Attribute.failure (a : Attribute) (f : Fault) : Failure := .fault a.start a.stop f

/-- A fault of the value of an attribute. -/
def Attribute.valueFailure (a : Attribute) (f : Fault) : Failure :=
  .fault a.valueStart a.valueStop f

/-- The name inside the brackets, when the closing one matches and there is no other bracket. -/
def innerName? (closer : Char) (name : List Char) : Option (List Char) :=
  let inner := (name.drop 1).dropLast
  if name.getLast? = some closer && !inner.isEmpty && !inner.any (['[', ']', '(', ')'].contains ·)
  then some inner else none

/-- What a bracketed attribute binds: its kind and target. -/
def dynamicTarget (component : Bool) (a : Attribute) : Except Failure (BindingKind × String) :=
  let name := a.name.toList
  let handler := name.head? = some '('
  match innerName? (if handler then ')' else ']') name with
  | none => .error (a.failure (.malformedBinding a.name))
  | some inner =>
    let target := String.ofList inner
    if a.value.isNone then .error (a.failure (.bindingWithoutValue a.name))
    else if handler then .ok (if component then .output else .event, target)
    else match dropPrefix? "attr.".toList inner with
      | some [] => .error (a.failure (.malformedBinding a.name))
      | some attr => .ok (.attr, String.ofList attr)
      | none =>
        if hasPrefix "w:" target then .error (a.failure (.unknownDirectiveBinding target))
        else if inner.contains '.' then .error (a.failure (.unsupportedBinding a.name))
        else if inner.contains '-' then .ok (.attr, target)
        else .ok (if component then .input else .property, target)

/-- The kind, target and value of a bracketed attribute. -/
def bindDynamic (component : Bool) (a : Attribute) :
    Except Failure (BindingKind × String × Value) := do
  let (kind, target) ← dynamicTarget component a
  match readExpression kind.isHandler (a.value.getD "").toList with
  | .error e => .error (a.valueFailure (.bindingExpression a.name e))
  | .ok value =>
    match kind.isHandler, value with
    | true, .call .. => .ok (kind, target, value)
    | true, _ => .error (a.valueFailure (.handlerNotCall a.name))
    | false, _ => .ok (kind, target, value)

/-- The kind, target and value of a plain attribute. -/
def bindLiteral (component : Bool) (a : Attribute) : BindingKind × String × Value :=
  let text := Value.text (CharacterReference.decode (a.value.getD ""))
  if component then (.input, a.name, if a.value.isNone then .literal "true" else text)
  else match documentProperties.lookup (lowercase a.name) with
    | some (property, true) => (.property, property, .literal "true")
    | some (property, false) => (.property, property, text)
    | none => (.attr, a.name, text)

/-- The binding of an attribute that is no directive. -/
def bindAttribute (source : Source) (component : Bool) (a : Attribute) :
    Except Failure Binding := do
  let name := a.name.toList
  let (kind, target, value) ←
    if name.head? = some '[' || name.head? = some '(' then bindDynamic component a
    else if hasPrefix "w:" a.name then .error (a.failure (.bareDirective a.name))
    else if name.any (['[', ']', '(', ')', '#', '\x7b', '\x7d'].contains ·) then
      .error (a.failure (.attributeName a.name))
    else .ok (bindLiteral component a)
  return { kind, name := target, value, span := source.span a.start a.stop }

/-- The bindings of the attributes of a tag, and the one attribute that wraps it in a directive. -/
def bindAttributes (source : Source) (component : Bool) (tag : String) :
    Option Attribute → List Attribute → Except Failure (List Binding × Option Attribute)
  | directive, [] => .ok ([], directive)
  | directive, a :: rest =>
    if a.isDirective then
      if directive.isSome then .error (a.failure (.secondDirective tag))
      else if a.value.isNone then .error (a.failure (.directiveWithoutValue a.name))
      else bindAttributes source component tag (some a) rest
    else
      match bindAttribute source component a with
      | .error e => .error e
      | .ok binding =>
        match bindAttributes source component tag directive rest with
        | .error e => .error e
        | .ok (bindings, directive) => .ok (binding :: bindings, directive)

end ViewCompiler.Template
