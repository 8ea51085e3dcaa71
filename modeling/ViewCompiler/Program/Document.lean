import ViewCompiler.Document.Json
import ViewCompiler.Document.Yaml.Printer
import ViewCompiler.Problem
import ViewCompiler.Program.Basic

/-!
# Programs as documents

The fields under which a program is written, in order. Fields that a reader can do without are left
out when they are empty.
-/

namespace ViewCompiler.Program

open ViewCompiler.Text ViewCompiler.Document

/-- The fields of a value without its arguments. -/
def Operand.fields (o : Operand) : List (String × Document) :=
  [("kind", .text o.kind), ("text", .text o.text), ("constant", .flag o.constant)] ++
    textUnlessEmpty "ref_kind" o.refKind ++
    numberIfSome "definition" o.definition ++
    (if o.access.isEmpty then [] else [("access", numbers o.access)])

mutual

/-- A value as a document. -/
def Value.toDocument : Value → Document
  | .mk operand arguments =>
    .record (operand.fields ++ listUnlessEmpty "args" (argumentDocuments arguments))

/-- Several values as documents. -/
def argumentDocuments : List Value → List Document
  | [] => []
  | v :: vs => v.toDocument :: argumentDocuments vs

end

/-- A binding as a document. -/
def Binding.toDocument (b : Binding) : Document :=
  .record ([("kind", .text b.kind)] ++ textUnlessEmpty "name" b.name ++
    [("value", b.value.toDocument)])

/-- A node as a document. -/
def Node.toDocument (n : Node) : Document :=
  .record ([("index", .number n.index), ("kind", .text n.kind)] ++ textUnlessEmpty "name" n.name ++
    [("slots", .number n.slots)] ++ listUnlessEmpty "bindings" (n.bindings.map Binding.toDocument))

/-- The update of a node as a document. -/
def NodeUpdate.toDocument (u : NodeUpdate) : Document :=
  .record [("index", .number u.index), ("values", ofOption (u.values.map (·.map .text)))]

/-- A trigger as a document. -/
def Trigger.toDocument (t : Trigger) : Document :=
  .record [("value", .text t.value), ("reason", .text t.reason)]

/-- The update of a child as a document. -/
def ChildUpdate.toDocument (u : ChildUpdate) : Document :=
  .record [("child", .number u.child),
    ("triggers", ofOption (u.triggers.map (·.map Trigger.toDocument)))]

/-- A step of an update routine as a document. -/
def Action.toDocument (a : Action) : Document :=
  .record ([("kind", .text a.kind)] ++ numberIfSome "index" a.index ++
    numberIfSome "child" a.child ++
    [("values", ofOption (a.values.map (·.map .text)))])

/-- A scope as a document. -/
def Scope.toDocument (s : Scope) : Document :=
  .record ([("id", .number s.id), ("name", .text s.name), ("kind", .text s.kind)] ++
    numberIfSome "parent" s.parent ++ [("anchor", .number s.anchor)] ++
    textUnlessEmpty "spec" s.spec ++ listUnlessEmpty "children" (s.children.map .number) ++
    [("slots", .number s.slots)] ++
    listUnlessEmpty "self_bindings" (s.selfBindings.map Binding.toDocument) ++
    listUnlessEmpty "nodes" (s.nodes.map Node.toDocument) ++
    listUnlessEmpty "dom_diff" (s.nodeUpdates.map NodeUpdate.toDocument) ++
    listUnlessEmpty "factory_diff" (s.childUpdates.map ChildUpdate.toDocument) ++
    listUnlessEmpty "actions" (s.actions.map Action.toDocument))

/-- A style sheet as a document. -/
def Style.toDocument (s : Style) : Document :=
  .record [("component", .text s.component), ("tag", .text s.tag),
    ("attribute", .text s.attributeName), ("css", .text s.css)]

/-- A program as a document. -/
def toDocument (p : Program) : Document :=
  .record ([("root", .text p.root),
    ("factories", ofOption (p.scopes.map (·.map Scope.toDocument)))] ++
    listUnlessEmpty "styles" (p.styles.map Style.toDocument))

/-! ### Formats -/

/-- The formats in which a program is written. -/
inductive Format where
  | yaml | json
  deriving DecidableEq, Repr

/-- The format with the given name. -/
def Format.ofName (name : String) : Except Problem Format :=
  match name with
  | "yaml" | "yml" => .ok .yaml
  | "json" => .ok .json
  | _ => .error (.plain ("unknown format " ++ quote name))

/-- Writes a program. -/
def render (format : Format) (p : Program) : String :=
  match format with
  | .yaml => Yaml.render 2 p.toDocument
  | .json => Json.render p.toDocument

/-- Writes a program in the format with the given name. -/
def encode (p : Program) (format : String) : Except Problem String :=
  (Format.ofName format).map (p.render ·)

end ViewCompiler.Program
